import NeonTests.Lib.Base58
import NeonTests.Solana.Types

/-!
# Derived addresses — the accounts of the loader

The addresses `utils/evm_loader.py` and `utils/solana_client.py` derive. The `solders` function
they go through is a parameter: what it finds is the hash of one text, the seeds, a bump, the
program and a marker behind each other.

* `text_injective` — what is hashed for one account is hashed for no other: the seeds are of
  fixed lengths, and the lengths of the kinds are apart;
* `derived_address_inj` — so two accounts have one address only where the hash collides.
-/

namespace NeonTests.Solana

open Endian Fallible Python

-- ---------------------------------------------------------------------------
-- find_program_address
-- ---------------------------------------------------------------------------

/-- What is hashed: the seeds, of which only the concatenation is left, and the rest. -/
def programAddressText (seeds : List Bytes) (bump : Nat) (programId : Pubkey) : Bytes :=
  seeds.flatten ++ [UInt8.ofNat bump] ++ (programId.bytes.toList ++ utf8 "ProgramDerivedAddress")

/-- What the derivations depend on: the hash, the search for an address, and what the client is
configured with. -/
structure Derivation where
  sha256 : Bytes → Pubkey
  /-- `Pubkey.find_program_address(seeds, program_id)` -/
  findProgramAddress : List Bytes → Pubkey → Except PyError (Pubkey × Nat)
  /-- The address is the hash for the bump it is found with. -/
  sha256_of_find : ∀ {seeds programId key bump},
    findProgramAddress seeds programId = .ok (key, bump) →
      sha256 (programAddressText seeds bump programId) = key
  accountSeedVersion : Bytes
  /-- `TREASURY_POOL_SEED` -/
  treasuryPoolSeed : String
  loaderId : Pubkey

namespace Derivation

variable (derivation : Derivation)

-- ---------------------------------------------------------------------------
-- The accounts
-- ---------------------------------------------------------------------------

/-- `ether: Union[str, bytes]` -/
inductive Ether
  | str (text : String)
  | bytes (raw : Bytes)
  deriving DecidableEq, Repr

def ether2bytes : Ether → Except PyError Bytes
  | .str text =>
    if "0x".toList <+: text.toList then fromHex (String.ofList (text.toList.drop 2))
    else fromHex text
  | .bytes raw => .ok raw

def ether2program (ether : Ether) : Except PyError (String × Nat) := do
  let ether ← ether2bytes ether
  let items ← derivation.findProgramAddress [derivation.accountSeedVersion, ether]
    derivation.loaderId
  return (Base58.encode items.1.bytes.toList, items.2)

def ether2balance (address : Ether) (chainId : Int) : Except PyError Pubkey := do
  let addressBytes ← ether2bytes address
  let chainIdBytes ← toBytesBig chainId 32
  let items ← derivation.findProgramAddress
    [derivation.accountSeedVersion, addressBytes, chainIdBytes] derivation.loaderId
  return items.1

def ether2operatorBalance (keypair : Keypair) (etherAddress : Ether) (chainId : Int) :
    Except PyError Pubkey := do
  let addressBytes ← ether2bytes etherAddress
  let chainIdBytes ← toBytesBig chainId 32
  let items ← derivation.findProgramAddress
    [derivation.accountSeedVersion, keypair.pubkey.bytes.toList, addressBytes, chainIdBytes]
    derivation.loaderId
  return items.1

def createTreasuryPoolAddress (poolIndex : Int) : Except PyError Pubkey := do
  let index ← toBytesLittle poolIndex 4
  let items ← derivation.findProgramAddress [utf8 derivation.treasuryPoolSeed, index]
    derivation.loaderId
  return items.1

/-- With the loader's id as the last argument. -/
def getErcAuthAddress (neonAccountAddress tokenAddress : String) : Except PyError Pubkey := do
  let account ← fromHex (String.ofList (neonAccountAddress.toList.drop 2))
  let contract ← ether2bytes (.str tokenAddress)
  let items ← derivation.findProgramAddress
    [derivation.accountSeedVersion, utf8 "AUTH", contract, List.replicate 12 0 ++ account]
    derivation.loaderId
  return items.1

end Derivation

/-- The accounts that are derived, by what they are derived from. -/
inductive Derived
  | program (ether : Bytes)
  | balance (ether : Bytes) (chainId : Int)
  | operatorBalance (operator : Pubkey) (ether : Bytes) (chainId : Int)
  | treasuryPool (index : Int)
  | ercAuth (contract account : Bytes)
  deriving DecidableEq, Repr

namespace Derived

/-- Addresses of the chain are 20 bytes. -/
def WellFormed : Derived → Prop
  | program ether => ether.length = 20
  | balance ether _ => ether.length = 20
  | operatorBalance _ ether _ => ether.length = 20
  | treasuryPool _ => True
  | ercAuth contract account => contract.length = 20 ∧ account.length = 20

def seeds (derivation : Derivation) : Derived → Except PyError (List Bytes)
  | program ether => .ok [derivation.accountSeedVersion, ether]
  | balance ether chainId => do
    return [derivation.accountSeedVersion, ether, ← toBytesBig chainId 32]
  | operatorBalance operator ether chainId => do
    return [derivation.accountSeedVersion, operator.bytes.toList, ether,
      ← toBytesBig chainId 32]
  | treasuryPool index => do
    return [utf8 derivation.treasuryPoolSeed, ← toBytesLittle index 4]
  | ercAuth contract account =>
    .ok [derivation.accountSeedVersion, utf8 "AUTH", contract, List.replicate 12 0 ++ account]

def address (derivation : Derivation) (account : Derived) : Except PyError Pubkey := do
  let items ← derivation.findProgramAddress (← account.seeds derivation) derivation.loaderId
  return items.1

/-- One of the texts that are hashed for an account. -/
def Text (derivation : Derivation) (account : Derived) (text : Bytes) : Prop :=
  ∃ seeds bump, account.seeds derivation = .ok seeds ∧
    text = programAddressText seeds bump derivation.loaderId

/-- How many bytes of seeds there are. -/
def size (derivation : Derivation) : Derived → Nat
  | program _ => derivation.accountSeedVersion.length + 20
  | balance _ _ => derivation.accountSeedVersion.length + 52
  | operatorBalance _ _ _ => derivation.accountSeedVersion.length + 84
  | treasuryPool _ => (utf8 derivation.treasuryPoolSeed).length + 4
  | ercAuth _ _ => derivation.accountSeedVersion.length + 56

end Derived

/-- No pool's seeds are as long as those of another account. -/
def Derivation.Separate (derivation : Derivation) : Prop :=
  ∀ k ∈ [20, 52, 56, 84],
    (utf8 derivation.treasuryPoolSeed).length + 4 ≠ derivation.accountSeedVersion.length + k

variable {derivation : Derivation}

instance (derivation : Derivation) : Decidable derivation.Separate :=
  inferInstanceAs (Decidable (∀ k ∈ [20, 52, 56, 84],
    (utf8 derivation.treasuryPoolSeed).length + 4 ≠ derivation.accountSeedVersion.length + k))

-- ---------------------------------------------------------------------------
-- One text, one account
-- ---------------------------------------------------------------------------

theorem toBytesBig_inj {m n : Int} {w : Nat} {bs : Bytes} (hm : toBytesBig m w = .ok bs)
    (hn : toBytesBig n w = .ok bs) : m = n := by
  unfold toBytesBig at hm hn
  split at hm
  · next hmRange =>
    split at hn
    · next hnRange =>
      have heq := congrArg beNat ((Except.ok.inj hm).trans (Except.ok.inj hn).symm)
      rw [beNat_beBytes hmRange.2, beNat_beBytes hnRange.2] at heq
      omega
    · cases hn
  · cases hm

theorem toBytesLittle_inj {m n : Int} {w : Nat} {bs : Bytes} (hm : toBytesLittle m w = .ok bs)
    (hn : toBytesLittle n w = .ok bs) : m = n := by
  obtain ⟨hmRange, rfl⟩ := toBytesLittle_eq_ok.mp hm
  obtain ⟨hnRange, heq⟩ := toBytesLittle_eq_ok.mp hn
  have heq := congrArg leNat heq
  rw [leNat_leBytes hmRange.2, leNat_leBytes hnRange.2] at heq
  omega

theorem length_flatten_seeds {account : Derived} {seeds : List Bytes} (hwf : account.WellFormed)
    (h : account.seeds derivation = .ok seeds) :
    seeds.flatten.length = account.size derivation := by
  have hauth : (utf8 "AUTH").length = 4 := by decide
  cases account with
  | program ether =>
    cases h
    have hlen : ether.length = 20 := hwf
    simp [Derived.size, hlen]
  | balance ether chainId =>
    have hlen : ether.length = 20 := hwf
    obtain ⟨chain, hchain, h⟩ := bind_eq_ok.mp h
    cases h
    simp [Derived.size, hlen, length_toBytesBig hchain]
  | operatorBalance operator ether chainId =>
    have hlen : ether.length = 20 := hwf
    obtain ⟨chain, hchain, h⟩ := bind_eq_ok.mp h
    cases h
    simp [Derived.size, hlen, length_toBytesBig hchain]
  | treasuryPool index =>
    obtain ⟨pool, hpool, h⟩ := bind_eq_ok.mp h
    cases h
    obtain ⟨-, rfl⟩ := toBytesLittle_eq_ok.mp hpool
    simp [Derived.size]
  | ercAuth contract account =>
    cases h
    obtain ⟨hcontract, haccount⟩ : contract.length = 20 ∧ account.length = 20 := hwf
    simp [Derived.size, hcontract, haccount, hauth]

theorem pubkey_ext {a b : Pubkey} (h : a.bytes.toList = b.bytes.toList) : a = b := by
  cases a
  cases b
  exact congrArg Pubkey.mk (Vector.toList_inj.mp h)

/-- Equal seeds are those of one account. -/
theorem seeds_injective {x y : Derived} {s t : List Bytes} (hseparate : derivation.Separate)
    (hx : x.WellFormed) (hy : y.WellFormed) (hs : x.seeds derivation = .ok s)
    (ht : y.seeds derivation = .ok t) (heq : s.flatten = t.flatten) : x = y := by
  have hsize : x.size derivation = y.size derivation := by
    rw [← length_flatten_seeds hx hs, heq, length_flatten_seeds hy ht]
  have hpool : ∀ k ∈ [20, 52, 56, 84], (utf8 derivation.treasuryPoolSeed).length + 4 ≠
    derivation.accountSeedVersion.length + k := hseparate
  simp only [List.forall_mem_cons, List.not_mem_nil, false_implies, implies_true, and_true]
    at hpool
  cases x with
  | program ether =>
    cases y with
    | program ether' =>
      cases hs
      cases ht
      simpa using heq
    | _ => simp only [Derived.size] at hsize; omega
  | balance ether chainId =>
    cases y with
    | balance ether' chainId' =>
      obtain ⟨chain, hchain, hs⟩ := bind_eq_ok.mp hs
      obtain ⟨chain', hchain', ht⟩ := bind_eq_ok.mp ht
      cases hs
      cases ht
      obtain ⟨hether, hchains⟩ : ether = ether' ∧ chain = chain' := by
        simp only [List.flatten_cons, List.flatten_nil, List.append_nil] at heq
        exact List.append_inj (List.append_cancel_left heq) (hx.trans hy.symm)
      rw [hether, toBytesBig_inj hchain (hchains ▸ hchain')]
    | _ => simp only [Derived.size] at hsize; omega
  | operatorBalance operator ether chainId =>
    cases y with
    | operatorBalance operator' ether' chainId' =>
      obtain ⟨chain, hchain, hs⟩ := bind_eq_ok.mp hs
      obtain ⟨chain', hchain', ht⟩ := bind_eq_ok.mp ht
      cases hs
      cases ht
      simp only [List.flatten_cons, List.flatten_nil, List.append_nil] at heq
      obtain ⟨hoperator, heq⟩ := List.append_inj (List.append_cancel_left heq) (by simp)
      obtain ⟨hether, hchains⟩ := List.append_inj heq (hx.trans hy.symm)
      rw [pubkey_ext hoperator, hether, toBytesBig_inj hchain (hchains ▸ hchain')]
    | _ => simp only [Derived.size] at hsize; omega
  | treasuryPool index =>
    cases y with
    | treasuryPool index' =>
      obtain ⟨pool, hpoolIndex, hs⟩ := bind_eq_ok.mp hs
      obtain ⟨pool', hpoolIndex', ht⟩ := bind_eq_ok.mp ht
      cases hs
      cases ht
      simp only [List.flatten_cons, List.flatten_nil, List.append_nil] at heq
      rw [toBytesLittle_inj hpoolIndex (List.append_cancel_left heq ▸ hpoolIndex')]
    | _ => simp only [Derived.size] at hsize; omega
  | ercAuth contract account =>
    cases y with
    | ercAuth contract' account' =>
      cases hs
      cases ht
      simp only [List.flatten_cons, List.flatten_nil, List.append_nil] at heq
      obtain ⟨hcontract, heq⟩ := List.append_inj
        (List.append_cancel_left (List.append_cancel_left heq)) (hx.1.trans hy.1.symm)
      rw [hcontract, List.append_cancel_left heq]
    | _ => simp only [Derived.size] at hsize; omega

/-- What is hashed for one account is hashed for no other. -/
theorem text_injective {x y : Derived} {text : Bytes} (hseparate : derivation.Separate)
    (hx : x.WellFormed) (hy : y.WellFormed) (htext : x.Text derivation text)
    (htext' : y.Text derivation text) : x = y := by
  obtain ⟨s, bump, hs, rfl⟩ := htext
  obtain ⟨t, bump', ht, heq⟩ := htext'
  have hseeds := List.append_cancel_right heq
  exact seeds_injective hseparate hx hy hs ht (List.append_inj' hseeds rfl).1

-- ---------------------------------------------------------------------------
-- One address, one account
-- ---------------------------------------------------------------------------

/-- An address is the hash of one of the texts of its account. -/
theorem exists_text {account : Derived} {key : Pubkey}
    (h : account.address derivation = .ok key) :
    ∃ text, account.Text derivation text ∧ derivation.sha256 text = key := by
  obtain ⟨seeds, hseeds, h⟩ := bind_eq_ok.mp h
  obtain ⟨⟨found, bump⟩, hfind, h⟩ := bind_eq_ok.mp h
  cases h
  exact ⟨_, ⟨seeds, bump, hseeds, rfl⟩, derivation.sha256_of_find hfind⟩

/-- A call that derives an address. -/
inductive Call
  | ether2program (ether : Derivation.Ether)
  | ether2balance (address : Derivation.Ether) (chainId : Int)
  | ether2operatorBalance (keypair : Keypair) (etherAddress : Derivation.Ether) (chainId : Int)
  | createTreasuryPoolAddress (poolIndex : Int)
  | getErcAuthAddress (neonAccountAddress tokenAddress : String)

namespace Call

/-- The text of the key. -/
def result (derivation : Derivation) : Call → Except PyError String
  | ether2program ether => do
    let items ← derivation.ether2program ether
    return items.1
  | ether2balance address chainId => do
    return Base58.encode (← derivation.ether2balance address chainId).bytes.toList
  | ether2operatorBalance keypair etherAddress chainId => do
    return Base58.encode
      (← derivation.ether2operatorBalance keypair etherAddress chainId).bytes.toList
  | createTreasuryPoolAddress poolIndex => do
    return Base58.encode (← derivation.createTreasuryPoolAddress poolIndex).bytes.toList
  | getErcAuthAddress neonAccountAddress tokenAddress => do
    return Base58.encode
      (← derivation.getErcAuthAddress neonAccountAddress tokenAddress).bytes.toList

/-- The account the call is about, whatever form its arguments have. -/
def account : Call → Except PyError Derived
  | ether2program ether => do
    return .program (← Derivation.ether2bytes ether)
  | ether2balance address chainId => do
    return .balance (← Derivation.ether2bytes address) chainId
  | ether2operatorBalance keypair etherAddress chainId => do
    return .operatorBalance keypair.pubkey (← Derivation.ether2bytes etherAddress) chainId
  | createTreasuryPoolAddress poolIndex => .ok (.treasuryPool poolIndex)
  | getErcAuthAddress neonAccountAddress tokenAddress => do
    let account ← fromHex (String.ofList (neonAccountAddress.toList.drop 2))
    return .ercAuth (← Derivation.ether2bytes (.str tokenAddress)) account

end Call

theorem address_of_call {call : Call} {text : String} (h : call.result derivation = .ok text) :
    ∃ account key, call.account = .ok account ∧ account.address derivation = .ok key ∧
      text = Base58.encode key.bytes.toList := by
  cases call with
  | ether2program ether =>
    obtain ⟨items, hitems, h⟩ := bind_eq_ok.mp h
    cases h
    obtain ⟨raw, hraw, hitems⟩ := bind_eq_ok.mp hitems
    obtain ⟨found, hfound, hitems⟩ := bind_eq_ok.mp hitems
    cases hitems
    exact ⟨.program raw, found.1, bind_eq_ok.mpr ⟨_, hraw, rfl⟩,
      bind_eq_ok.mpr ⟨_, rfl, bind_eq_ok.mpr ⟨_, hfound, rfl⟩⟩, rfl⟩
  | ether2balance address chainId =>
    obtain ⟨key, hkey, h⟩ := bind_eq_ok.mp h
    cases h
    obtain ⟨raw, hraw, hkey⟩ := bind_eq_ok.mp hkey
    obtain ⟨chain, hchain, hkey⟩ := bind_eq_ok.mp hkey
    exact ⟨.balance raw chainId, key, bind_eq_ok.mpr ⟨_, hraw, rfl⟩,
      bind_eq_ok.mpr ⟨_, bind_eq_ok.mpr ⟨_, hchain, rfl⟩, hkey⟩, rfl⟩
  | ether2operatorBalance keypair etherAddress chainId =>
    obtain ⟨key, hkey, h⟩ := bind_eq_ok.mp h
    cases h
    obtain ⟨raw, hraw, hkey⟩ := bind_eq_ok.mp hkey
    obtain ⟨chain, hchain, hkey⟩ := bind_eq_ok.mp hkey
    exact ⟨.operatorBalance keypair.pubkey raw chainId, key, bind_eq_ok.mpr ⟨_, hraw, rfl⟩,
      bind_eq_ok.mpr ⟨_, bind_eq_ok.mpr ⟨_, hchain, rfl⟩, hkey⟩, rfl⟩
  | createTreasuryPoolAddress poolIndex =>
    obtain ⟨key, hkey, h⟩ := bind_eq_ok.mp h
    cases h
    obtain ⟨index, hindex, hkey⟩ := bind_eq_ok.mp hkey
    exact ⟨.treasuryPool poolIndex, key, rfl,
      bind_eq_ok.mpr ⟨_, bind_eq_ok.mpr ⟨_, hindex, rfl⟩, hkey⟩, rfl⟩
  | getErcAuthAddress neonAccountAddress tokenAddress =>
    obtain ⟨key, hkey, h⟩ := bind_eq_ok.mp h
    cases h
    obtain ⟨account, haccount, hkey⟩ := bind_eq_ok.mp hkey
    obtain ⟨contract, hcontract, hkey⟩ := bind_eq_ok.mp hkey
    exact ⟨.ercAuth contract account, key,
      bind_eq_ok.mpr ⟨_, haccount, bind_eq_ok.mpr ⟨_, hcontract, rfl⟩⟩,
      bind_eq_ok.mpr ⟨_, rfl, hkey⟩, rfl⟩

/-- **One address, one account.** Two calls that come to the same address are about the same
account, or they come upon two texts that the hash takes together. -/
theorem derived_address_inj (derivation : Derivation) (call call' : Call) (address : String)
    (hseparate : derivation.Separate) (h : call.result derivation = .ok address)
    (h' : call'.result derivation = .ok address) :
    ∃ x y, call.account = .ok x ∧ call'.account = .ok y ∧ (x.WellFormed → y.WellFormed →
      x = y ∨ ∃ text text', text ≠ text' ∧ x.Text derivation text ∧ y.Text derivation text' ∧
        derivation.sha256 text = derivation.sha256 text') := by
  obtain ⟨x, key, hx, haddress, rfl⟩ := address_of_call h
  obtain ⟨y, key', hy, haddress', htext⟩ := address_of_call h'
  have hkeys : key = key' := by
    have hdecode := congrArg Base58.decode htext
    rw [Base58.decode_encode, Base58.decode_encode] at hdecode
    exact pubkey_ext (Option.some.inj hdecode)
  obtain ⟨text, htext, hhash⟩ := exists_text haddress
  obtain ⟨text', htext', hhash'⟩ := exists_text haddress'
  refine ⟨x, y, hx, hy, fun hwf hwf' => ?_⟩
  by_cases hne : text = text'
  · subst hne
    exact Or.inl (text_injective hseparate hwf hwf' htext htext')
  · exact Or.inr ⟨text, text', hne, htext, htext', by rw [hhash, hhash', hkeys]⟩

/-- Some bytes of the text for its hash. -/
def sampleHash (text : Bytes) : Pubkey := ⟨.ofFn fun i => text.getD i 0⟩

/-- The highest bump is off the curve at once; there are at most 16 seeds with the bump, and none
is longer than 32 bytes. -/
def sampleFind (seeds : List Bytes) (programId : Pubkey) : Except PyError (Pubkey × Nat) :=
  if seeds.length < 16 ∧ ∀ seed ∈ seeds, seed.length ≤ 32 then
    .ok (sampleHash (programAddressText seeds 255 programId), 255)
  else .error (.exception "Unable to find a viable program address bump seed")

theorem sampleHash_of_find {seeds : List Bytes} {programId key : Pubkey} {bump : Nat}
    (h : sampleFind seeds programId = .ok (key, bump)) :
    sampleHash (programAddressText seeds bump programId) = key := by
  unfold sampleFind at h
  split at h
  · obtain ⟨hkey, rfl⟩ := Prod.mk.inj (Except.ok.inj h)
    exact hkey
  · exact absurd h nofun

def sampleDerivation : Derivation where
  sha256 := sampleHash
  findProgramAddress := sampleFind
  sha256_of_find := sampleHash_of_find
  accountSeedVersion := [3]
  treasuryPoolSeed := "treasury_pool"
  loaderId := ⟨.replicate 32 7⟩

/-- One address, with its prefix and as bytes. -/
theorem derived_address_inj_sampleDerivation :
    let call := Call.ether2balance (.str "0x0101010101010101010101010101010101010101") 111
    let call' := Call.ether2balance (.bytes (List.replicate 20 1)) 111
    ∃ x y, call.account = .ok x ∧ call'.account = .ok y ∧ (x.WellFormed → y.WellFormed →
      x = y ∨ ∃ text text', text ≠ text' ∧ x.Text sampleDerivation text ∧
        y.Text sampleDerivation text' ∧
        sampleDerivation.sha256 text = sampleDerivation.sha256 text') := by
  have hether : Derivation.ether2bytes (.str "0x0101010101010101010101010101010101010101") =
      Derivation.ether2bytes (.bytes (List.replicate 20 1)) := by decide
  have hsame : (Call.ether2balance (.str "0x0101010101010101010101010101010101010101") 111).result
      sampleDerivation =
        (Call.ether2balance (.bytes (List.replicate 20 1)) 111).result sampleDerivation := by
    rw [Call.result, Call.result, Derivation.ether2balance, Derivation.ether2balance, hether]
  have hresult : (Call.ether2balance (.bytes (List.replicate 20 1)) 111).result
      sampleDerivation = .ok _ := rfl
  exact derived_address_inj sampleDerivation _ _ _ (by decide) (hsame.trans hresult) hresult

end NeonTests.Solana
