import NeonTests.Lib.Batch
import NeonTests.Lib.Calls
import NeonTests.Lib.Solidity

/-!
# ERC3475 — bonds of classes and nonces

`contracts/EIPs/ERC3475.sol`, compiled by 0.8.10: arithmetic that leaves the width
panics. The writable functions take a batch of transactions, each about one nonce of
one class, and work through it in a loop.

The metadata, and of a nonce's values all but the numbers, are left out: no function
here reads them.
-/

namespace NeonTests.Erc3475

open Fallible Solidity

-- ---------------------------------------------------------------------------
-- Storage
-- ---------------------------------------------------------------------------

/-- A class and a nonce of it. -/
abbrev Bond := Uint256 × Uint256

structure Transaction where
  classId : Uint256
  nonceId : Uint256
  amount : Uint256
  deriving DecidableEq, Repr

def Transaction.bond (t : Transaction) : Bond := (t.classId, t.nonceId)

structure Nonce (Address : Type) where
  /-- `_values[i].uintValue` -/
  values : Uint256 → Uint256
  balances : Address → Uint256
  allowances : Address → Address → Uint256
  activeSupply : Uint256
  burnedSupply : Uint256
  redeemedSupply : Uint256

inductive Event (Address : Type)
  | transfer (operator src dst : Address) (transactions : List Transaction)
  | issue (operator dst : Address) (transactions : List Transaction)
  | redeem (operator src : Address) (transactions : List Transaction)
  | burn (operator src : Address) (transactions : List Transaction)
  | approvalFor (owner operator : Address) (approved : Bool)
  deriving DecidableEq, Repr

structure Storage (Address : Type) where
  operatorApprovals : Address → Address → Bool
  nonces : Bond → Nonce Address
  log : List (Event Address)

variable {Address : Type}

/-- After the constructor, which writes no number. -/
def initial : Storage Address where
  operatorApprovals _ _ := false
  nonces _ := {
    values := fun _ => 0
    balances := fun _ => 0
    allowances := fun _ _ => 0
    activeSupply := 0
    burnedSupply := 0
    redeemedSupply := 0 }
  log := []

variable [DecidableEq Address]

-- ---------------------------------------------------------------------------
-- Statements about one nonce
-- ---------------------------------------------------------------------------

/-- `nonce._balances[a] += amount` -/
def addBalance (a : Address) (amount : Uint256) (n : Nonce Address) :
    Except Revert (Nonce Address) := do
  let balance ← checkedAdd (n.balances a) amount
  return { n with balances := Function.update n.balances a balance }

/-- `nonce._balances[a] -= amount` -/
def subBalance (a : Address) (amount : Uint256) (n : Nonce Address) :
    Except Revert (Nonce Address) := do
  let balance ← checkedSub (n.balances a) amount
  return { n with balances := Function.update n.balances a balance }

def setAllowance (owner spender : Address) (amount : Uint256) (n : Nonce Address) :
    Nonce Address :=
  { n with
    allowances := Function.update n.allowances owner
      (Function.update (n.allowances owner) spender amount) }

/-- `nonce._allowances[owner][spender] -= amount` -/
def subAllowance (owner spender : Address) (amount : Uint256) (n : Nonce Address) :
    Except Revert (Nonce Address) := do
  let allowance ← checkedSub (n.allowances owner spender) amount
  return setAllowance owner spender allowance n

/-- `nonce._activeSupply += amount` -/
def addActive (amount : Uint256) (n : Nonce Address) : Except Revert (Nonce Address) := do
  let supply ← checkedAdd n.activeSupply amount
  return { n with activeSupply := supply }

/-- `nonce._activeSupply -= amount` -/
def subActive (amount : Uint256) (n : Nonce Address) : Except Revert (Nonce Address) := do
  let supply ← checkedSub n.activeSupply amount
  return { n with activeSupply := supply }

/-- `nonce._burnedSupply += amount` -/
def addBurned (amount : Uint256) (n : Nonce Address) : Except Revert (Nonce Address) := do
  let supply ← checkedAdd n.burnedSupply amount
  return { n with burnedSupply := supply }

/-- `nonce._redeemedSupply += amount` -/
def addRedeemed (amount : Uint256) (n : Nonce Address) : Except Revert (Nonce Address) := do
  let supply ← checkedAdd n.redeemedSupply amount
  return { n with redeemedSupply := supply }

-- ---------------------------------------------------------------------------
-- Internals
-- ---------------------------------------------------------------------------

namespace Internal

def transferFrom (src dst : Address) (t : Transaction) (n : Nonce Address) :
    Except Revert (Nonce Address) := do
  require (t.amount ≤ n.balances src) "ERC3475: not enough bond to transfer"
  let n ← subBalance src t.amount n
  addBalance dst t.amount n

def transferAllowanceFrom (operator src dst : Address) (t : Transaction) (n : Nonce Address) :
    Except Revert (Nonce Address) := do
  require (t.amount ≤ n.balances src) "ERC3475: not allowed amount"
  let n ← subAllowance src operator t.amount n
  let n ← subBalance src t.amount n
  addBalance dst t.amount n

def issue (dst : Address) (t : Transaction) (n : Nonce Address) :
    Except Revert (Nonce Address) := do
  let n ← addBalance dst t.amount n
  addActive t.amount n

def redeem (src : Address) (t : Transaction) (n : Nonce Address) :
    Except Revert (Nonce Address) := do
  require (t.amount ≤ n.balances src) "ERC3475: not enough bond to transfer"
  let n ← subBalance src t.amount n
  let n ← subActive t.amount n
  addRedeemed t.amount n

def burn (src : Address) (t : Transaction) (n : Nonce Address) :
    Except Revert (Nonce Address) := do
  require (t.amount ≤ n.balances src) "ERC3475: not enough bond to transfer"
  let n ← subBalance src t.amount n
  let n ← subActive t.amount n
  addBurned t.amount n

end Internal

/-- `getProgress`: what was achieved, and what remains. -/
def getProgress (timestamp : Uint256) (n : Nonce Address) : Except Revert (Uint256 × Uint256) := do
  let issuanceDate := n.values 0
  let maturityDate ← checkedAdd issuanceDate (n.values 5)
  let progressAchieved ← checkedSub timestamp issuanceDate
  let progressRemaining ← if timestamp < maturityDate then checkedSub maturityDate timestamp
    else .ok 0
  return (progressAchieved, progressRemaining)

-- ---------------------------------------------------------------------------
-- Writable functions
-- ---------------------------------------------------------------------------

/-- The loop over a batch: one nonce of the storage for each transaction. -/
def forTransactions (f : Transaction → Nonce Address → Except Revert (Nonce Address))
    (transactions : List Transaction) (s : Storage Address) : Except Revert (Storage Address) := do
  let nonces ← Batch.run Transaction.bond f transactions s.nonces
  return { s with nonces := nonces }

def emit (e : Event Address) (s : Storage Address) : Storage Address :=
  { s with log := s.log ++ [e] }

def isApprovedFor (owner operator : Address) (s : Storage Address) : Bool :=
  s.operatorApprovals owner operator

variable [Zero Address]

def transferFrom (sender src dst : Address) (transactions : List Transaction)
    (s : Storage Address) : Except Revert (Storage Address) := do
  require (src ≠ 0) "ERC3475: can't transfer from the zero address"
  require (dst ≠ 0) "ERC3475:use burn() instead"
  require (sender = src ∨ isApprovedFor src sender s = true)
    "ERC3475:caller-not-owner-or-approved"
  let s ← forTransactions (Internal.transferFrom src dst) transactions s
  return emit (.transfer sender src dst transactions) s

def transferAllowanceFrom (sender src dst : Address) (transactions : List Transaction)
    (s : Storage Address) : Except Revert (Storage Address) := do
  require (src ≠ 0) "ERC3475: can't transfer allowed amt from zero address"
  require (dst ≠ 0) "ERC3475: use burn() instead"
  let s ← forTransactions (fun t n => do
    require (t.amount ≤ n.allowances src sender) "ERC3475:caller-not-owner-or-approved"
    Internal.transferAllowanceFrom sender src dst t n) transactions s
  return emit (.transfer sender src dst transactions) s

def issue (sender dst : Address) (transactions : List Transaction) (s : Storage Address) :
    Except Revert (Storage Address) := do
  let s ← forTransactions (fun t n => do
    require (dst ≠ 0) "ERC3475: can't issue to the zero address"
    Internal.issue dst t n) transactions s
  return emit (.issue sender dst transactions) s

/-- A round of the loop of `redeem`. -/
def redeemTransaction (timestamp : Uint256) (src : Address) (t : Transaction)
    (n : Nonce Address) : Except Revert (Nonce Address) := do
  let (_, progressRemaining) ← getProgress timestamp n
  require (progressRemaining = 0) "ERC3475 Error: Not redeemable"
  Internal.redeem src t n

/-- Nothing is asked of the sender. -/
def redeem (timestamp : Uint256) (sender src : Address) (transactions : List Transaction)
    (s : Storage Address) : Except Revert (Storage Address) := do
  require (src ≠ 0) "ERC3475: can't redeem from the zero address"
  let s ← forTransactions (redeemTransaction timestamp src) transactions s
  return emit (.redeem sender src transactions) s

def burn (sender src : Address) (transactions : List Transaction) (s : Storage Address) :
    Except Revert (Storage Address) := do
  require (src ≠ 0) "ERC3475: can't burn from the zero address"
  require (sender = src ∨ isApprovedFor src sender s = true)
    "ERC3475: caller-not-owner-or-approved"
  let s ← forTransactions (Internal.burn src) transactions s
  return emit (.burn sender src transactions) s

def approve (sender spender : Address) (transactions : List Transaction) (s : Storage Address) :
    Except Revert (Storage Address) :=
  forTransactions (fun t n => .ok (setAllowance sender spender t.amount n)) transactions s

def setApprovalFor (sender operator : Address) (approved : Bool) (s : Storage Address) :
    Except Revert (Storage Address) :=
  .ok (emit (.approvalFor sender operator approved) { s with
    operatorApprovals := Function.update s.operatorApprovals sender
      (Function.update (s.operatorApprovals sender) operator approved) })

-- ---------------------------------------------------------------------------
-- Calls
-- ---------------------------------------------------------------------------

inductive Operation (Address : Type)
  | transferFrom (src dst : Address) (transactions : List Transaction)
  | transferAllowanceFrom (src dst : Address) (transactions : List Transaction)
  | issue (dst : Address) (transactions : List Transaction)
  | redeem (src : Address) (transactions : List Transaction)
  | burn (src : Address) (transactions : List Transaction)
  | approve (spender : Address) (transactions : List Transaction)
  | setApprovalFor (operator : Address) (approved : Bool)
  deriving DecidableEq, Repr

structure Call (Address : Type) where
  sender : Address
  /-- `block.timestamp` -/
  timestamp : Uint256
  operation : Operation Address

def execute (c : Call Address) (s : Storage Address) : Except Revert (Storage Address) :=
  match c.operation with
  | .transferFrom src dst transactions => transferFrom c.sender src dst transactions s
  | .transferAllowanceFrom src dst transactions =>
    transferAllowanceFrom c.sender src dst transactions s
  | .issue dst transactions => issue c.sender dst transactions s
  | .redeem src transactions => redeem c.timestamp c.sender src transactions s
  | .burn src transactions => burn c.sender src transactions s
  | .approve spender transactions => approve c.sender spender transactions s
  | .setApprovalFor operator approved => setApprovalFor c.sender operator approved s

/-- A call that reverts leaves the storage as it was, wherever in its batch it failed. -/
def call (s : Storage Address) (c : Call Address) : Storage Address := Calls.apply execute s c

/-- A run: calls one after another. -/
def callAll (calls : List (Call Address)) (s : Storage Address) : Storage Address :=
  Calls.applyAll execute calls s

end NeonTests.Erc3475
