import NeonTests.EvmLoader.Layouts
import NeonTests.Solana.ProgramAddress

/-!
# Accounts of the loader — what is read of them

`get_solana_account_data` of `utils/evm_loader.py` and what reads accounts with it. The length
of the data is checked before they are parsed, so the parser never fails (`parseAccount_returns`),
and a value is read exactly if the account begins with a record that has it
(`neonAccount_reads`).
-/

namespace NeonTests.EvmLoader

open Endian Fallible Formats Formats.Format Python Solana

/-- The derivation of addresses, and the accounts as the node has them. -/
structure Ledger where
  derivation : Derivation
  getAccountInfo : Pubkey → Option Bytes

namespace Ledger

variable (ledger : Ledger)

/-- With a key; `f"{account}"` is its text. -/
def getSolanaAccountData (account : Pubkey) (expectedLength : Nat) : Except PyError Bytes :=
  match ledger.getAccountInfo account with
  | none =>
    .error (.exception
      ("Can't get information about " ++ Base58.encode account.bytes.toList))
  | some data =>
    if data.length < expectedLength then
      .error (.exception
        ("Wrong data length for account data " ++ Base58.encode account.bytes.toList))
    else .ok data

/-- `layout.parse(info)` -/
def parseAccount {α : Type} (layout : Format α) (info : Bytes) : Except PyError α :=
  match layout.parse info with
  | .ok (account, _) => .ok account
  | .error _ => .error (.exception "StreamError")

def getNeonNonce (account : Derivation.Ether) (chainId : Int) : Except PyError Int := do
  let solanaAddress ← ledger.derivation.ether2balance account chainId
  let info ← ledger.getSolanaAccountData solanaAddress 70
  let layout ← parseAccount balanceAccountLayout info
  return layout.trxCount

def getNeonBalance (account : Derivation.Ether) (chainId : Int) : Except PyError Nat := do
  let balanceAddress ← ledger.derivation.ether2balance account chainId
  let info ← ledger.getSolanaAccountData balanceAddress 70
  let layout ← parseAccount balanceAccountLayout info
  return leNat layout.balance

def getContractAccountRevision (address : Pubkey) : Except PyError Int := do
  let accountData ← ledger.getSolanaAccountData address 38
  let layout ← parseAccount contractAccountLayout accountData
  return layout.revision

def getDataAccountRevision (address : Pubkey) : Except PyError Int := do
  let accountData ← ledger.getSolanaAccountData address 6
  let layout ← parseAccount storageCellLayout accountData
  return layout.revision

end Ledger

-- ---------------------------------------------------------------------------
-- Reading a record
-- ---------------------------------------------------------------------------

variable {ledger : Ledger} {α : Type} {layout : Format α} {key : Pubkey} {account : α} {n : Nat}

/-- The account begins with the record. -/
def Ledger.Records (ledger : Ledger) (layout : Format α) (key : Pubkey) (account : α) : Prop :=
  ∃ front back, ledger.getAccountInfo key = some (front ++ back) ∧
    layout.build account = .ok front

/-- Behind the check of the length the parser does not fail. -/
theorem parseAccount_returns {info : Bytes} (hsize : FixedSize layout n)
    (hdata : ledger.getSolanaAccountData key n = .ok info) :
    ∃ account, Ledger.parseAccount layout info = .ok account := by
  unfold Ledger.getSolanaAccountData at hdata
  split at hdata
  · cases hdata
  · split at hdata
    · cases hdata
    · next hle =>
      cases hdata
      obtain ⟨account, hparse⟩ := hsize.returns (Nat.le_of_not_lt hle)
      exact ⟨account, by rw [Ledger.parseAccount, hparse]⟩

/-- A record is read exactly if the account begins with it. -/
theorem read_iff (hsize : FixedSize layout n) (hexact : Exact layout) :
    (∃ info, ledger.getSolanaAccountData key n = .ok info ∧
      Ledger.parseAccount layout info = .ok account) ↔ ledger.Records layout key account := by
  constructor
  · rintro ⟨info, hdata, hparse⟩
    unfold Ledger.getSolanaAccountData at hdata
    split at hdata
    · cases hdata
    · next data haccount =>
      split at hdata
      · cases hdata
      · cases hdata
        unfold Ledger.parseAccount at hparse
        split at hparse
        · next found rest hfound =>
          cases hparse
          obtain ⟨front, rfl, hbuild⟩ := hexact _ _ _ hfound
          exact ⟨front, rest, haccount, hbuild⟩
        · cases hparse
  · rintro ⟨front, back, haccount, hbuild⟩
    have hlen := hsize.length_build hbuild
    have hle : ¬ (front ++ back).length < n := by
      rw [List.length_append]
      omega
    refine ⟨front ++ back, ?_, ?_⟩
    · rw [Ledger.getSolanaAccountData, haccount]
      exact if_neg hle
    · rw [Ledger.parseAccount, layout.parse_build hbuild]

theorem exact_balanceAccount : Exact balanceAccountLayout :=
  ((exact_uint 1).seq ((exact_uint 1).seq ((exact_bytes 20).seq
    ((exact_uint 8).seq ((exact_uint 8).seq (exact_bytes 32)))))).iso _

theorem exact_contractAccount : Exact contractAccountLayout :=
  ((exact_uint 1).seq ((exact_uint 1).seq ((exact_bytes 20).seq
    ((exact_uint 8).seq ((exact_uint 4).seq (exact_uint 4)))))).iso _

theorem exact_storageCell : Exact storageCellLayout :=
  ((exact_uint 1).seq ((exact_uint 1).seq (exact_uint 4))).iso _

/-- One field of a record. -/
theorem read_field_iff {β : Type} {field : α → β} {b : β} (hsize : FixedSize layout n)
    (hexact : Exact layout) :
    (do let info ← ledger.getSolanaAccountData key n
        let account ← Ledger.parseAccount layout info
        return field account) = .ok b ↔
      ∃ account, ledger.Records layout key account ∧ field account = b := by
  constructor
  · intro h
    obtain ⟨info, hinfo, h⟩ := bind_eq_ok.mp h
    obtain ⟨account, haccount, h⟩ := bind_eq_ok.mp h
    exact ⟨account, (read_iff hsize hexact).mp ⟨info, hinfo, haccount⟩, pure_eq_ok.mp h⟩
  · rintro ⟨account, hrecords, rfl⟩
    obtain ⟨info, hinfo, haccount⟩ := (read_iff hsize hexact).mpr hrecords
    exact bind_eq_ok.mpr ⟨info, hinfo, bind_eq_ok.mpr ⟨account, haccount, rfl⟩⟩

/-- **Reading accounts.** A nonce, a balance or a revision is read exactly if the account at the
address begins with a record that has it; in particular no shorter account gives one, and the
fields are found where the records have them. Data that pass the check of their length are
parsed. -/
theorem neonAccount_reads (ledger : Ledger) (account : Derivation.Ether) (chainId : Int)
    (address : Pubkey) :
    (∀ nonce, ledger.getNeonNonce account chainId = .ok nonce ↔
      ∃ key record, ledger.derivation.ether2balance account chainId = .ok key ∧
        ledger.Records balanceAccountLayout key record ∧ record.trxCount = nonce) ∧
    (∀ balance, ledger.getNeonBalance account chainId = .ok balance ↔
      ∃ key record, ledger.derivation.ether2balance account chainId = .ok key ∧
        ledger.Records balanceAccountLayout key record ∧ leNat record.balance = balance) ∧
    (∀ revision, ledger.getContractAccountRevision address = .ok revision ↔
      ∃ record, ledger.Records contractAccountLayout address record ∧
        record.revision = revision) ∧
    (∀ revision, ledger.getDataAccountRevision address = .ok revision ↔
      ∃ record, ledger.Records storageCellLayout address record ∧ record.revision = revision) ∧
    ∀ key info,
      (ledger.getSolanaAccountData key 70 = .ok info →
        ∃ record, Ledger.parseAccount balanceAccountLayout info = .ok record) ∧
      (ledger.getSolanaAccountData key 38 = .ok info →
        ∃ record, Ledger.parseAccount contractAccountLayout info = .ok record) ∧
      (ledger.getSolanaAccountData key 6 = .ok info →
        ∃ record, Ledger.parseAccount storageCellLayout info = .ok record) := by
  refine ⟨fun _ => ?_, fun _ => ?_, fun _ => ?_, fun _ => ?_, fun key info => ⟨?_, ?_, ?_⟩⟩
  · exact bind_eq_ok.trans (exists_congr fun key => (and_congr_right fun _ =>
      read_field_iff fixedSize_balanceAccount exact_balanceAccount).trans exists_and_left.symm)
  · exact bind_eq_ok.trans (exists_congr fun key => (and_congr_right fun _ =>
      read_field_iff fixedSize_balanceAccount exact_balanceAccount).trans exists_and_left.symm)
  · exact read_field_iff fixedSize_contractAccount exact_contractAccount
  · exact read_field_iff fixedSize_storageCell exact_storageCell
  · exact parseAccount_returns fixedSize_balanceAccount
  · exact parseAccount_returns fixedSize_contractAccount
  · exact parseAccount_returns fixedSize_storageCell

end NeonTests.EvmLoader
