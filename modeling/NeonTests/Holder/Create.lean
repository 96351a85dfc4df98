import NeonTests.Lib.Script
import NeonTests.Solana.Types

/-!
# Holder creation — the retry that keeps its seed

`create_holder` of `neon_evm/utils/storage.py` with `make_CreateAccountWithSeed` and
`make_CreateHolderAccount` of `utils/instructions.py`. The derivation of an address from a seed
(`sha256`), the system program's instruction and the node are parameters, the random seeds a
stream. `limit` is the interpreter's recursion limit.

On an occupied address the function calls itself with the seed and the address it has, so it
comes to the same address again: it finds a free address exactly if the first one is free and
the node takes the creation (`createHolder_finds_free_iff`).
-/

namespace NeonTests.Holder

open Endian Python Scripts Solana

-- ---------------------------------------------------------------------------
-- Instructions
-- ---------------------------------------------------------------------------

/-- `sp.CreateAccountWithSeedParams` -/
structure CreateAccountWithSeedParams where
  fromPubkey : Pubkey
  toPubkey : Pubkey
  base : Pubkey
  seed : String
  lamports : UInt64
  space : UInt64
  owner : Pubkey
  deriving DecidableEq, Repr

/-- The chain as the function sees it. -/
structure HolderChain where
  loaderId : Pubkey
  /-- signer, seed, program -/
  derive : Pubkey → String → Pubkey → Pubkey
  createAccountWithSeed : CreateAccountWithSeedParams → Instruction
  /-- the balances before the call: nothing is read after something has been sent -/
  getSolanaBalance : Pubkey → Except PyError Nat
  /-- the signature, or what the preflight raises -/
  sendTransaction : Transaction → Keypair → Except PyError Signature
  /-- the transaction takes effect on the ledger, whatever the client is told -/
  executes : Transaction → Keypair → Bool
  confirmTransaction : Signature → Except PyError Unit
  getTransaction : Signature → Except PyError Unit
  /-- `str(randrange(100000000000))`, draw after draw -/
  seeds : Nat → String

/-- What a call leaves: the transactions that took effect, and the number of seeds drawn. -/
structure World where
  executed : List (Transaction × Keypair)
  drawn : Nat
  deriving DecidableEq, Repr

def makeCreateAccountWithSeed (chain : HolderChain) (funding base : Pubkey) (seed : String)
    (lamports space : UInt64) (program : Pubkey) : Instruction :=
  chain.createAccountWithSeed {
    fromPubkey := funding
    toPubkey := chain.derive base seed program
    base := base
    seed := seed
    lamports := lamports
    space := space
    owner := program }

/-- No string has a length of more than eight bytes. -/
def makeCreateHolderAccount (account operator : Pubkey) (seed : Bytes) (evmLoaderId : Pubkey) :
    Instruction where
  programId := evmLoaderId
  accounts := [
    { pubkey := account, isSigner := false, isWritable := true },
    { pubkey := operator, isSigner := true, isWritable := false }]
  data := 0x24 :: leBytes 8 seed.length ++ seed

-- ---------------------------------------------------------------------------
-- create_holder
-- ---------------------------------------------------------------------------

def drawSeed (chain : HolderChain) : Script PyError World String :=
  step fun w => (.ok (chain.seeds w.drawn), { w with drawn := w.drawn + 1 })

def sendTransaction (chain : HolderChain) (trx : Transaction) (signer : Keypair) :
    Script PyError World Signature :=
  step fun w => (chain.sendTransaction trx signer,
    if chain.executes trx signer then { w with executed := w.executed ++ [(trx, signer)] } else w)

def sendTx (chain : HolderChain) (trx : Transaction) (signer : Keypair) :
    Script PyError World Unit := do
  let signature ← sendTransaction chain trx signer
  liftM (chain.confirmTransaction signature)
  liftM (chain.getTransaction signature)

def createHolder (chain : HolderChain) (signer : Keypair) : (limit : Nat) →
    (seed : Option String) → (size fund : Option UInt64) → (storage : Option Pubkey) →
    Script PyError World (Option Pubkey)
  | 0, _, _, _, _ => fail .recursionError
  | limit + 1, seed, size, fund, storage => do
    let size := size.getD (128 * 1024)
    let fund := fund.getD 1000000000
    let seed ← match seed with
      | some seed => pure seed
      | none => drawSeed chain
    let storage := storage.getD (chain.derive signer.pubkey seed chain.loaderId)
    let balance ← liftM (chain.getSolanaBalance storage)
    if balance = 0 then do
      let trx := (Transaction.new.add (makeCreateAccountWithSeed chain signer.pubkey signer.pubkey
        seed fund size chain.loaderId)).add
        (makeCreateHolderAccount storage signer.pubkey (utf8 seed) chain.loaderId)
      sendTx chain trx signer
      return some storage
    else do
      -- the result is not returned
      let _ ← createHolder chain signer limit (some seed) (some size) (some fund) (some storage)
      return none

-- ---------------------------------------------------------------------------
-- What is asked of it
-- ---------------------------------------------------------------------------

section

variable (chain : HolderChain) (signer : Keypair)

/-- The address of the seed drawn `k` draws later. -/
def addressOf (w : World) (k : Nat) : Pubkey :=
  chain.derive signer.pubkey (chain.seeds (w.drawn + k)) chain.loaderId

/-- The transaction that creates the account of a seed. -/
def creation (seed : String) (size fund : UInt64) : Transaction where
  instructions := [
    chain.createAccountWithSeed {
      fromPubkey := signer.pubkey
      toPubkey := chain.derive signer.pubkey seed chain.loaderId
      base := signer.pubkey
      seed := seed
      lamports := fund
      space := size
      owner := chain.loaderId },
    makeCreateHolderAccount (chain.derive signer.pubkey seed chain.loaderId) signer.pubkey
      (utf8 seed) chain.loaderId]

/-- The node takes a transaction: it executes it and answers each of the three calls. -/
structure Takes (trx : Transaction) : Prop where
  executes : chain.executes trx signer = true
  answers : ∃ signature, chain.sendTransaction trx signer = .ok signature ∧
    chain.confirmTransaction signature = .ok () ∧ chain.getTransaction signature = .ok ()

/-- The run has returned the first free address of the stream, and that one account's
creation has taken effect and nothing else. -/
def FindsFree (size fund : Option UInt64) (w : World)
    (result : Except PyError (Option Pubkey) × World) : Prop :=
  ∃ k, chain.getSolanaBalance (addressOf chain signer w k) = .ok 0 ∧
    (∀ j < k, chain.getSolanaBalance (addressOf chain signer w j) ≠ .ok 0) ∧
    result.1 = .ok (some (addressOf chain signer w k)) ∧
    result.2.executed = w.executed ++ [(creation chain signer (chain.seeds (w.drawn + k))
      (size.getD (128 * 1024)) (fund.getD 1000000000), signer)]

end

-- ---------------------------------------------------------------------------
-- Sending
-- ---------------------------------------------------------------------------

variable {chain : HolderChain} {signer : Keypair} {w : World} {trx : Transaction}

theorem executed_sendTx : (exec (sendTx chain trx signer) w).2.executed =
    if chain.executes trx signer then w.executed ++ [(trx, signer)] else w.executed := by
  have hworld : (exec (sendTx chain trx signer) w).2 =
      (exec (sendTransaction chain trx signer) w).2 := by
    rw [sendTx, exec_bind]
    rcases exec (sendTransaction chain trx signer) w with ⟨e | signature, w'⟩
    · rfl
    · dsimp only
      rw [exec_bind, exec_liftM]
      cases chain.confirmTransaction signature <;> rfl
  rw [hworld, sendTransaction, exec_step]
  split <;> rfl

theorem sendTx_returns_iff : (exec (sendTx chain trx signer) w).1 = .ok () ↔
    ∃ signature, chain.sendTransaction trx signer = .ok signature ∧
      chain.confirmTransaction signature = .ok () ∧ chain.getTransaction signature = .ok () := by
  rw [sendTx, exec_bind, sendTransaction, exec_step]
  cases hsend : chain.sendTransaction trx signer with
  | error e => simp
  | ok signature =>
    dsimp only
    rw [exec_bind, exec_liftM]
    cases hconfirm : chain.confirmTransaction signature with
    | error e => simp [hconfirm]
    | ok _ => simp [hconfirm]

/-- The one transaction has taken effect and the client knows it, exactly if the node takes
it. -/
theorem takes_iff : Takes chain signer trx ↔ (exec (sendTx chain trx signer) w).1 = .ok () ∧
    (exec (sendTx chain trx signer) w).2.executed = w.executed ++ [(trx, signer)] := by
  rw [sendTx_returns_iff, executed_sendTx]
  constructor
  · rintro ⟨hexecutes, hanswers⟩
    exact ⟨hanswers, if_pos hexecutes⟩
  · rintro ⟨hanswers, hexecuted⟩
    refine ⟨?_, hanswers⟩
    by_contra hnot
    rw [if_neg hnot] at hexecuted
    simpa using congrArg List.length hexecuted

-- ---------------------------------------------------------------------------
-- The two branches
-- ---------------------------------------------------------------------------

/-- The transaction that the code puts together. -/
theorem creation_eq (seed : String) (size fund : UInt64) :
    (Transaction.new.add (makeCreateAccountWithSeed chain signer.pubkey signer.pubkey seed fund size
        chain.loaderId)).add (makeCreateHolderAccount (chain.derive signer.pubkey seed chain.loaderId)
          signer.pubkey (utf8 seed) chain.loaderId) = creation chain signer seed size fund := rfl

theorem addressOf_zero : addressOf chain signer w 0 =
    chain.derive signer.pubkey (chain.seeds w.drawn) chain.loaderId := rfl

/-- A free address: the account is to be created there. -/
theorem exec_createHolder_free {size fund : Option UInt64}
    (hfree : chain.getSolanaBalance (addressOf chain signer w 0) = .ok 0) (limit : Nat) :
    exec (createHolder chain signer (limit + 1) none size fund none) w =
      match exec (sendTx chain (creation chain signer (chain.seeds w.drawn)
          (size.getD (128 * 1024)) (fund.getD 1000000000)) signer)
          { w with drawn := w.drawn + 1 } with
      | (.ok _, w') => (.ok (some (addressOf chain signer w 0)), w')
      | (.error e, w') => (.error e, w') := by
  rw [createHolder, exec_bind]
  simp only [drawSeed, exec_step, Option.getD_none]
  rw [addressOf_zero] at hfree
  rw [exec_bind, exec_liftM, hfree]
  dsimp only
  rw [if_pos rfl, exec_bind]
  simp only [exec_pure, creation_eq, addressOf_zero]
  rcases exec (sendTx chain _ signer) _ with ⟨_ | _, _⟩ <;> rfl

/-- With a seed and an occupied address every call makes the same call again. -/
theorem exec_createHolder_again {seed : String} {size fund : UInt64} {storage : Pubkey}
    {balance : Nat} (hbalance : chain.getSolanaBalance storage = .ok balance)
    (hoccupied : balance ≠ 0) (limit : Nat) :
    exec (createHolder chain signer limit (some seed) (some size) (some fund) (some storage)) w =
      (.error .recursionError, w) := by
  induction limit with
  | zero => rfl
  | succ limit ih =>
    rw [createHolder, exec_bind]
    simp only [exec_pure, Option.getD_some]
    rw [exec_bind, exec_liftM, hbalance]
    dsimp only
    rw [if_neg hoccupied, exec_bind, ih]

theorem exec_createHolder_occupied {size fund : Option UInt64} {balance : Nat}
    (hbalance : chain.getSolanaBalance (addressOf chain signer w 0) = .ok balance)
    (hoccupied : balance ≠ 0) (limit : Nat) :
    exec (createHolder chain signer (limit + 1) none size fund none) w =
      (.error .recursionError, { w with drawn := w.drawn + 1 }) := by
  rw [createHolder, exec_bind]
  simp only [drawSeed, exec_step, Option.getD_none]
  rw [addressOf_zero] at hbalance
  rw [exec_bind, exec_liftM, hbalance]
  dsimp only
  rw [if_neg hoccupied, exec_bind, exec_createHolder_again hbalance hoccupied]

theorem exec_createHolder_unknown {size fund : Option UInt64} {e : PyError}
    (hbalance : chain.getSolanaBalance (addressOf chain signer w 0) = .error e) (limit : Nat) :
    exec (createHolder chain signer (limit + 1) none size fund none) w =
      (.error e, { w with drawn := w.drawn + 1 }) := by
  rw [createHolder, exec_bind]
  simp only [drawSeed, exec_step, Option.getD_none]
  rw [addressOf_zero] at hbalance
  rw [exec_bind, exec_liftM, hbalance]

/-- A call that returns an address has found the first one free. -/
theorem free_of_returns {size fund : Option UInt64} {limit : Nat} {storage : Pubkey}
    (h : (exec (createHolder chain signer (limit + 1) none size fund none) w).1 =
      .ok (some storage)) :
    chain.getSolanaBalance (addressOf chain signer w 0) = .ok 0 ∧
      storage = addressOf chain signer w 0 := by
  cases hbalance : chain.getSolanaBalance (addressOf chain signer w 0) with
  | error e =>
    rw [exec_createHolder_unknown hbalance] at h
    cases h
  | ok balance =>
    by_cases hoccupied : balance = 0
    · subst hoccupied
      rw [exec_createHolder_free hbalance] at h
      split at h
      · exact ⟨rfl, (Option.some.inj (Except.ok.inj h)).symm⟩
      · cases h
    · rw [exec_createHolder_occupied hbalance hoccupied] at h
      cases h

/-- **A free address is found exactly if the first one is free** and the node takes the
creation. -/
theorem createHolder_finds_free_iff (chain : HolderChain) (signer : Keypair) (w : World)
    (size fund : Option UInt64) (limit : Nat) :
    FindsFree chain signer size fund w
        (exec (createHolder chain signer (limit + 1) none size fund none) w) ↔
      chain.getSolanaBalance (addressOf chain signer w 0) = .ok 0 ∧
        Takes chain signer (creation chain signer (chain.seeds w.drawn)
          (size.getD (128 * 1024)) (fund.getD 1000000000)) := by
  rw [takes_iff (w := { w with drawn := w.drawn + 1 })]
  constructor
  · rintro ⟨k, _, hoccupied, hresult, hexecuted⟩
    obtain ⟨hfree, -⟩ := free_of_returns hresult
    obtain rfl : k = 0 := by
      by_contra hk
      exact hoccupied 0 (Nat.pos_of_ne_zero hk) hfree
    refine ⟨hfree, ?_⟩
    rw [exec_createHolder_free hfree] at hresult hexecuted
    split at hresult
    · next hsend =>
      rw [hsend] at hexecuted ⊢
      exact ⟨rfl, hexecuted⟩
    · cases hresult
  · rintro ⟨hfree, hsent, hexecuted⟩
    refine ⟨0, hfree, fun j hj => absurd hj (Nat.not_lt_zero j), ?_⟩
    rw [exec_createHolder_free hfree]
    split
    · next hsend =>
      rw [hsend] at hexecuted
      exact ⟨rfl, hexecuted⟩
    · next hsend =>
      rw [hsend] at hsent
      cases hsent

/-- A chain on which the address of seed "7" is occupied, and seed "8" comes next. Its node
takes every transaction. -/
def collidingChain : HolderChain where
  loaderId := ⟨.replicate 32 0⟩
  derive _ seed _ := if seed = "7" then ⟨.replicate 32 7⟩ else ⟨.replicate 32 8⟩
  createAccountWithSeed p := ⟨p.owner, utf8 p.seed, []⟩
  getSolanaBalance account := .ok (if account = ⟨.replicate 32 7⟩ then 5 else 0)
  sendTransaction _ _ := .ok (.replicate 64 1)
  executes _ _ := true
  confirmTransaction _ := .ok ()
  getTransaction _ := .ok ()
  seeds k := if k = 0 then "7" else "8"

def collidingSigner : Keypair := ⟨⟨.replicate 32 1⟩⟩

/-- The second address is free, the node would take its creation, and nothing is created at
all. -/
theorem createHolder_collision :
    collidingChain.getSolanaBalance (addressOf collidingChain collidingSigner ⟨[], 0⟩ 1) = .ok 0 ∧
    (∀ trx, Takes collidingChain collidingSigner trx) ∧
    ∀ limit, exec (createHolder collidingChain collidingSigner (limit + 1) none none none none)
        ⟨[], 0⟩ = (.error .recursionError, ⟨[], 1⟩) ∧
      ¬ FindsFree collidingChain collidingSigner none none ⟨[], 0⟩ (exec (createHolder
        collidingChain collidingSigner (limit + 1) none none none none) ⟨[], 0⟩) := by
  refine ⟨by decide, fun trx => ⟨rfl, _, rfl, rfl, rfl⟩, fun limit => ?_⟩
  have hbalance : collidingChain.getSolanaBalance
      (addressOf collidingChain collidingSigner ⟨[], 0⟩ 0) = .ok 5 := by decide
  have hrun : exec (createHolder collidingChain collidingSigner (limit + 1) none none none none)
      ⟨[], 0⟩ = (.error .recursionError, ⟨[], 1⟩) :=
    exec_createHolder_occupied hbalance (by decide) limit
  rw [hrun]
  refine ⟨rfl, ?_⟩
  rintro ⟨_, _, _, hresult, _⟩
  cases hresult

end NeonTests.Holder
