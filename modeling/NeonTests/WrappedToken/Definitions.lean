import NeonTests.Lib.Ledger
import NeonTests.Lib.Script
import NeonTests.Lib.Solidity

/-!
# Wrapped tokens — WNEON and WNativeChainToken

`contracts/common/WNeon.sol` (compiler 0.4.26: arithmetic wraps) and
`contracts/common/WNativeChainToken.sol` (0.8: arithmetic that leaves the width
panics). The two share most of their code, so each shared function is one
definition over what differs, and each contract's own functions are that
definition at its own values.

A function is a script over the token's state. The machine around it is at the
end: calls that carry value, payouts that hand control to the recipient and may
come back with calls of their own, reverts that restore the world, and native
currency others move about. Gas is not modelled, so a recipient may do more here
than a payout's stipend allows.
-/

namespace NeonTests.WrappedToken

open Ledger Scripts Solidity

variable {Address : Type} [DecidableEq Address]

-- ---------------------------------------------------------------------------
-- State
-- ---------------------------------------------------------------------------

inductive Event (Address : Type)
  | approval (src guy : Address) (wad : Uint256)
  | transfer (src dst : Address) (wad : Uint256)
  | deposit (dst : Address) (wad : Uint256)
  | withdrawal (src : Address) (wad : Uint256)
  deriving DecidableEq, Repr

/-- What a revert restores: everyone's native balance, and the token's own
storage and log. -/
structure World (Address : Type) where
  native : Address → Nat
  balanceOf : Address → Uint256
  allowance : Address → Address → Uint256
  log : List (Event Address)

/-- An operation that could go wrong, with its operands. -/
inductive Check
  | add (a b : Uint256)
  | sub (a b : Uint256)
  /-- a payout, with the funds it is made from -/
  | payout (funds : Nat) (wad : Uint256)
  deriving DecidableEq, Repr

/-- The operation neither wraps around nor is short of funds. -/
def Check.Sound : Check → Prop
  | .add a b => a.toNat + b.toNat < 2 ^ 256
  | .sub a b => b.toNat ≤ a.toNat
  | .payout funds wad => wad.toNat ≤ funds

/-- The world, and a record of every operation that could have gone wrong. The
record is no part of the chain: a revert leaves it standing. -/
structure State (Address : Type) where
  world : World Address
  checks : List Check

abbrev Contract (Address α : Type) := Script Revert (State Address) α

structure Msg (Address : Type) where
  sender : Address
  value : Uint256

-- ---------------------------------------------------------------------------
-- Statements of the two contracts
-- ---------------------------------------------------------------------------

def note (c : Check) : Contract Address Unit :=
  write fun s => { s with checks := s.checks ++ [c] }

/-- `require(c)` -/
def requires (c : Prop) [Decidable c] : Contract Address Unit :=
  ensure c .empty

def emit (e : Event Address) : Contract Address Unit :=
  write fun s => { s with world := { s.world with log := s.world.log ++ [e] } }

def getBalance (a : Address) : Contract Address Uint256 :=
  read fun s => s.world.balanceOf a

def setBalance (a : Address) (x : Uint256) : Contract Address Unit :=
  write fun s =>
    { s with world := { s.world with balanceOf := Function.update s.world.balanceOf a x } }

def getAllowance (src guy : Address) : Contract Address Uint256 :=
  read fun s => s.world.allowance src guy

def setAllowance (src guy : Address) (x : Uint256) : Contract Address Unit :=
  write fun s =>
    { s with world := { s.world with
      allowance := Function.update s.world.allowance src
        (Function.update (s.world.allowance src) guy x) } }

/-- The compiler's arithmetic. -/
inductive Arithmetic
  /-- before 0.8: results are taken modulo the width -/
  | unchecked
  | checked
  deriving DecidableEq, Repr

def Arithmetic.add (ar : Arithmetic) (a b : Uint256) : Contract Address Uint256 := do
  note (.add a b)
  match ar with
  | .unchecked => pure (a + b)
  | .checked => liftM (checkedAdd a b)

def Arithmetic.sub (ar : Arithmetic) (a b : Uint256) : Contract Address Uint256 := do
  note (.sub a b)
  match ar with
  | .unchecked => pure (a - b)
  | .checked => liftM (checkedSub a b)

/-- `balanceOf[a] += x` -/
def creditBalance (ar : Arithmetic) (a : Address) (x : Uint256) : Contract Address Unit := do
  let old ← getBalance a
  let new ← ar.add old x
  setBalance a new

/-- `balanceOf[a] -= x` -/
def debitBalance (ar : Arithmetic) (a : Address) (x : Uint256) : Contract Address Unit := do
  let old ← getBalance a
  let new ← ar.sub old x
  setBalance a new

/-- `allowance[src][guy] -= x` -/
def debitAllowance (ar : Arithmetic) (src guy : Address) (x : Uint256) :
    Contract Address Unit := do
  let old ← getAllowance src guy
  let new ← ar.sub old x
  setAllowance src guy new

/-- The compiler's check at the head of a function that is not payable. -/
def nonPayable (msg : Msg Address) : Contract Address Unit := requires (msg.value = 0)

-- ---------------------------------------------------------------------------
-- The shared functions
-- ---------------------------------------------------------------------------

def deposit (ar : Arithmetic) (msg : Msg Address) : Contract Address Unit := do
  creditBalance ar msg.sender msg.value
  emit (.deposit msg.sender msg.value)

/-- `withdraw` and `withdrawTo`. `pay recipient wad` is `recipient.transfer(wad)`. -/
def withdrawTo (ar : Arithmetic) (pay : Address → Uint256 → Contract Address Unit)
    (msg : Msg Address) (recipient : Address) (wad : Uint256) : Contract Address Unit := do
  let balance ← getBalance msg.sender
  requires (wad ≤ balance)
  debitBalance ar msg.sender wad
  pay recipient wad
  emit (.withdrawal recipient wad)

def totalSupply (token : Address) : Contract Address Uint256 :=
  read fun s => BitVec.ofNat 256 (s.world.native token)

def approve (msg : Msg Address) (guy : Address) (wad : Uint256) : Contract Address Bool := do
  setAllowance msg.sender guy wad
  emit (.approval msg.sender guy wad)
  return true

/-- The allowance branch of `transferFrom`. `limited` says which allowances are
used up at all. -/
def spendAllowance (ar : Arithmetic) (limited : Uint256 → Bool) (src guy : Address)
    (wad : Uint256) : Contract Address Unit := do
  let allowed ← getAllowance src guy
  if src ≠ guy ∧ limited allowed = true then do
    requires (wad ≤ allowed)
    debitAllowance ar src guy wad
  else pure ()

def transferFrom (ar : Arithmetic) (limited : Uint256 → Bool) (msg : Msg Address)
    (src dst : Address) (wad : Uint256) : Contract Address Bool := do
  let balance ← getBalance src
  requires (wad ≤ balance)
  spendAllowance ar limited src msg.sender wad
  debitBalance ar src wad
  creditBalance ar dst wad
  emit (.transfer src dst wad)
  return true

-- ---------------------------------------------------------------------------
-- The two contracts
-- ---------------------------------------------------------------------------

/-- A call's data, decoded by its selector. -/
inductive Calldata (Address : Type)
  /-- no data at all: a plain send -/
  | plain
  /-- a selector neither contract has -/
  | unknown
  | deposit
  | withdraw (wad : Uint256)
  | withdrawTo (recipient : Address) (wad : Uint256)
  | totalSupply
  | approve (guy : Address) (wad : Uint256)
  | transfer (dst : Address) (wad : Uint256)
  | transferFrom (src dst : Address) (wad : Uint256)
  | balanceOf (a : Address)
  | allowance (src guy : Address)
  deriving DecidableEq, Repr

/-- A function's return value, dropped. -/
def discard {α : Type} (x : Contract Address α) : Contract Address Unit := do
  let _ ← x
  pure ()

namespace WNEON

def deposit (msg : Msg Address) : Contract Address Unit :=
  WrappedToken.deposit .unchecked msg

/-- `function() public payable` -/
def fallback (msg : Msg Address) : Contract Address Unit := deposit msg

def withdraw (pay : Address → Uint256 → Contract Address Unit) (msg : Msg Address)
    (wad : Uint256) : Contract Address Unit :=
  WrappedToken.withdrawTo .unchecked pay msg msg.sender wad

def totalSupply (token : Address) : Contract Address Uint256 :=
  WrappedToken.totalSupply token

def approve (msg : Msg Address) (guy : Address) (wad : Uint256) : Contract Address Bool :=
  WrappedToken.approve msg guy wad

/-- The allowance `uint(-1)` is not used up. -/
def transferFrom (msg : Msg Address) (src dst : Address) (wad : Uint256) :
    Contract Address Bool :=
  WrappedToken.transferFrom .unchecked (fun allowed => decide (allowed ≠ -1)) msg src dst wad

def transfer (msg : Msg Address) (dst : Address) (wad : Uint256) : Contract Address Bool :=
  transferFrom msg msg.sender dst wad

/-- The selector table. `withdrawTo` is none of this contract's functions. -/
def dispatch (token : Address) (pay : Address → Uint256 → Contract Address Unit)
    (msg : Msg Address) : Calldata Address → Contract Address Unit
  | .plain | .unknown | .withdrawTo _ _ => fallback msg
  | .deposit => deposit msg
  | .withdraw wad => do nonPayable msg; withdraw pay msg wad
  | .totalSupply => do nonPayable msg; discard (totalSupply token)
  | .approve guy wad => do nonPayable msg; discard (approve msg guy wad)
  | .transfer dst wad => do nonPayable msg; discard (transfer msg dst wad)
  | .transferFrom src dst wad => do nonPayable msg; discard (transferFrom msg src dst wad)
  | .balanceOf a => do nonPayable msg; discard (getBalance a)
  | .allowance src guy => do nonPayable msg; discard (getAllowance src guy)

end WNEON

namespace WNativeChainToken

def deposit (msg : Msg Address) : Contract Address Unit :=
  WrappedToken.deposit .checked msg

def withdraw (pay : Address → Uint256 → Contract Address Unit) (msg : Msg Address)
    (wad : Uint256) : Contract Address Unit :=
  WrappedToken.withdrawTo .checked pay msg msg.sender wad

def withdrawTo (pay : Address → Uint256 → Contract Address Unit) (msg : Msg Address)
    (recipient : Address) (wad : Uint256) : Contract Address Unit :=
  WrappedToken.withdrawTo .checked pay msg recipient wad

def totalSupply (token : Address) : Contract Address Uint256 :=
  WrappedToken.totalSupply token

def approve (msg : Msg Address) (guy : Address) (wad : Uint256) : Contract Address Bool :=
  WrappedToken.approve msg guy wad

/-- Every allowance is used up. -/
def transferFrom (msg : Msg Address) (src dst : Address) (wad : Uint256) :
    Contract Address Bool :=
  WrappedToken.transferFrom .checked (fun _ => true) msg src dst wad

def transfer (msg : Msg Address) (dst : Address) (wad : Uint256) : Contract Address Bool :=
  transferFrom msg msg.sender dst wad

/-- The selector table. There is no fallback: what it does not name reverts. -/
def dispatch (token : Address) (pay : Address → Uint256 → Contract Address Unit)
    (msg : Msg Address) : Calldata Address → Contract Address Unit
  | .plain | .unknown => fail .empty
  | .deposit => deposit msg
  | .withdraw wad => do nonPayable msg; withdraw pay msg wad
  | .withdrawTo recipient wad => do nonPayable msg; withdrawTo pay msg recipient wad
  | .totalSupply => do nonPayable msg; discard (totalSupply token)
  | .approve guy wad => do nonPayable msg; discard (approve msg guy wad)
  | .transfer dst wad => do nonPayable msg; discard (transfer msg dst wad)
  | .transferFrom src dst wad => do nonPayable msg; discard (transferFrom msg src dst wad)
  | .balanceOf a => do nonPayable msg; discard (getBalance a)
  | .allowance src guy => do nonPayable msg; discard (getAllowance src guy)

end WNativeChainToken

/-- A deployed contract, as the machine sees it. -/
structure Token (Address : Type) where
  constructor : Msg Address → Contract Address Unit
  /-- what a payout to the contract itself runs -/
  receive : Msg Address → Contract Address Unit
  dispatch : (pay : Address → Uint256 → Contract Address Unit) → Msg Address →
    Calldata Address → Contract Address Unit

inductive Kind
  | wneon
  | wNativeChainToken
  deriving DecidableEq, Repr

/-- The contract of a kind, at the address `token`. -/
def Kind.code (token : Address) : Kind → Token Address
  | .wneon => {
      constructor := nonPayable
      receive := WNEON.fallback
      dispatch := WNEON.dispatch token }
  | .wNativeChainToken => {
      constructor := WNativeChainToken.deposit
      receive := fun _ => fail .empty
      dispatch := WNativeChainToken.dispatch token }

-- ---------------------------------------------------------------------------
-- The machine
-- ---------------------------------------------------------------------------

/-- The accounts that can start a call or move their own funds: the token does
neither. -/
abbrev Outside (token : Address) := {a : Address // a ≠ token}

def transferNative (src dst : Address) (amount : Nat) : Contract Address Unit :=
  step fun s =>
    if amount ≤ s.world.native src then
      (.ok (), { s with world := { s.world with
        native := Ledger.transfer s.world.native src dst amount } })
    else (.error .empty, s)

/-- A payout. The recipient runs before it answers; its refusal fails the
payout, and with it the call that made it. -/
def payNative (t : Token Address) (token : Address) (callbacks : State Address → State Address)
    (accepts : Bool) (recipient : Address) (wad : Uint256) : Contract Address Unit := do
  let funds ← read fun s => s.world.native token
  note (.payout funds wad)
  transferNative token recipient wad.toNat
  if recipient = token then t.receive ⟨token, wad⟩
  else do
    write callbacks
    requires (accepts = true)

/-- A call of the token: its value moves, then the code runs. -/
def callToken (t : Token Address) (token : Address)
    (pay : Address → Uint256 → Contract Address Unit) (msg : Msg Address)
    (data : Calldata Address) : Contract Address Unit := do
  transferNative msg.sender token msg.value.toNat
  t.dispatch pay msg data

/-- Run as a call of its own: a failed one leaves the world as it was. -/
def attempt (x : Contract Address Unit) (s : State Address) : State Address :=
  match exec x s with
  | (.ok _, s') => s'
  | (.error _, s') => { s' with world := s.world }

/-- What the accounts do. -/
inductive Action (token : Address)
  /-- native currency moved without running the token's code: a send between
  others, or one forced into the token -/
  | move (src : Outside token) (dst : Address) (amount : Nat)
  /-- a call of the token. If it makes a payout, the recipient makes the calls
  `callbacks` during it, and then accepts or refuses. -/
  | call (sender : Outside token) (value : Uint256) (data : Calldata Address)
      (callbacks : List (Action token)) (accepts : Bool)

variable {token : Address}

mutual

def Action.exec (t : Token Address) : Action token → State Address → State Address
  | .move src dst amount, s => attempt (transferNative src dst amount) s
  | .call sender value data callbacks accepts, s =>
    attempt (callToken t token (payNative t token (execAll t callbacks) accepts)
      ⟨sender, value⟩ data) s

def execAll (t : Token Address) : List (Action token) → State Address → State Address
  | [], s => s
  | a :: rest, s => execAll t rest (a.exec t s)

end

/-- The state after the token was created by `creator`, if its constructor
returned; nothing was written at its address before, but it may hold funds. -/
def deploy (t : Token Address) (creator : Outside token) (value : Uint256)
    (native : Address → Nat) : Option (State Address) :=
  let create : Contract Address Unit := do
    transferNative creator token value.toNat
    t.constructor ⟨creator, value⟩
  match exec create ⟨⟨native, fun _ => 0, fun _ _ => 0, []⟩, []⟩ with
  | (.ok _, s) => some s
  | (.error _, _) => none

end NeonTests.WrappedToken
