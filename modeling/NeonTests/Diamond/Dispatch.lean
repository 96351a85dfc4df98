import NeonTests.Diamond.Selectors
import NeonTests.Lib.Runs

/-!
# The diamond — calls, owners and initialisers

`contracts/EIPs/EIP2535`: the fallback function sends a call to the facet of its selector and
runs that facet's code on the diamond's storage, with the caller as `msg.sender`. The code of
`DiamondCutFacet` may run an initialiser the same way after the cuts, and an initialiser may be
`DiamondMultiInit`, another facet or the diamond itself, whose calldata brings further calls.
So what a call does is a recursion on its calldata.

Accounts do not change their code here. Foreign code comes in two kinds: `application` code
keeps to a storage of its own, `hostile` code does what it wants. Of the events, the cuts
themselves are in the log, without `_init`; what view functions answer is left out.
-/

namespace NeonTests.Diamond

open Batch Fallible Solidity

variable {Address σ : Type}

-- ---------------------------------------------------------------------------
-- Messages
-- ---------------------------------------------------------------------------

inductive View
  | facets
  | facetFunctionSelectors
  | facetAddresses
  | facetAddress
  | supportsInterface
  | owner
  deriving DecidableEq, Repr

/-- Calldata; what `bytes` arguments hold is calldata again. -/
inductive Msg (Address : Type)
  | diamondCut (cuts : List (FacetCut Address)) (init : Address) (calldata : Msg Address)
  | multiInit (addresses : List Address) (calldata : List (Msg Address))
  | init
  | transferOwnership (newOwner : Address)
  | view (v : View)
  | other (selector : Selector) (args : List UInt8)

structure Signatures where
  diamondCut : Selector
  multiInit : Selector
  init : Selector
  transferOwnership : Selector
  view : View → Selector

/-- `msg.sig` -/
def Signatures.of (sig : Signatures) : Msg Address → Selector
  | .diamondCut .. => sig.diamondCut
  | .multiInit .. => sig.multiInit
  | .init => sig.init
  | .transferOwnership _ => sig.transferOwnership
  | .view v => sig.view v
  | .other selector _ => selector

-- ---------------------------------------------------------------------------
-- State and code
-- ---------------------------------------------------------------------------

/-- The storage of the diamond; `app` is what application facets keep in it. -/
structure State (Address σ : Type) where
  ds : DiamondStorage Address
  supportedInterfaces : Selector → Bool
  contractOwner : Address
  app : σ

inductive Failure (Address : Type)
  | library (e : Error Address)
  | notContractOwner (user contractOwner : Address)
  | functionNotFound (selector : Selector)
  | initializationFunctionReverted (init : Address) (calldata : Msg Address)
  | addressAndCalldataLengthDoNotMatch (addressesLength calldataLength : Nat)
  | reverted (data : List UInt8)
  /-- A contract without the function, and without a fallback function. -/
  | noSuchFunction
  | outOfGas

/-- Whether there is nothing to bubble up. -/
def Failure.isEmpty : Failure Address → Bool
  | reverted data => data.isEmpty
  | noSuchFunction => true
  | outOfGas => true
  | _ => false

inductive Code (Address σ : Type)
  | none
  | diamond
  | diamondCutFacet
  | diamondLoupeFacet
  | ownershipFacet
  | diamondInit
  | diamondMultiInit
  | application (run : Msg Address → Address → σ → Except (List UInt8) σ)
  | hostile (run : Msg Address → State Address σ → Except (List UInt8) (State Address σ))

structure World (Address σ : Type) where
  this : Address
  code : Address → Code Address σ
  sig : Signatures
  /-- The interfaces that `DiamondInit` declares. -/
  interfaceIds : List Selector
  abi : Msg Address → List (BitVec 8)

/-- Only whether it is zero is ever asked. -/
def World.extcodesize (w : World Address σ) (a : Address) : Uint256 :=
  match w.code a with
  | .none => 0
  | _ => 1

-- ---------------------------------------------------------------------------
-- Calls
-- ---------------------------------------------------------------------------

variable [DecidableEq Address]

def enforceIsContractOwner (sender : Address) (s : State Address σ) :
    Except (Failure Address) Unit :=
  guard (sender = s.contractOwner) (.notContractOwner sender s.contractOwner)

/-- What code does that calls no other code; where it has no function for the message and no
fallback function, it reverts. -/
def runPlain (w : World Address σ) (sender : Address) (msg : Msg Address) (code : Code Address σ)
    (s : State Address σ) : Except (Failure Address) (State Address σ) :=
  match code, msg with
  | .none, _ => .ok s
  | .ownershipFacet, .transferOwnership newOwner => do
    enforceIsContractOwner sender s
    return { s with contractOwner := newOwner }
  | .ownershipFacet, .view .owner => .ok s
  | .diamondLoupeFacet, .view v => if v = .owner then .error .noSuchFunction else .ok s
  | .diamondInit, .init =>
    .ok { s with
      supportedInterfaces := fun i => w.interfaceIds.contains i || s.supportedInterfaces i }
  | .application run, msg =>
    match run msg sender s.app with
    | .ok app => .ok { s with app := app }
    | .error data => .error (.reverted data)
  | .hostile run, msg =>
    match run msg s with
    | .ok s' => .ok s'
    | .error data => .error (.reverted data)
  | _, _ => .error .noSuchFunction

variable [Zero Address]

/-- The code that runs when a message is delegated to an account. -/
def resolve (w : World Address σ) (s : State Address σ) (msg : Msg Address) (target : Address) :
    Except (Failure Address) (Code Address σ) :=
  match w.code target with
  | .diamond => do
    let facet := facetAddress s.ds (w.sig.of msg)
    guard (facet ≠ 0) (.functionNotFound (w.sig.of msg))
    match w.code facet with
    -- a fallback function that finds a fallback function finds it again
    | .diamond => .error .outOfGas
    | code => .ok code
  | code => .ok code

def library {α : Type} (x : Except (Error Address) α) : Except (Failure Address) α :=
  match x with
  | .ok a => .ok a
  | .error e => .error (.library e)

def initializeDiamondCut (w : World Address σ) (init : Address) (calldata : Msg Address)
    (delegatecall : State Address σ → Except (Failure Address) (State Address σ))
    (s : State Address σ) : Except (Failure Address) (State Address σ) :=
  if init = 0 then .ok s
  else do
    library (enforceHasContractCode ⟨w.this, w.extcodesize⟩ init
      "LibDiamondCut: _init address has no code")
    match delegatecall s with
    | .ok s' => .ok s'
    | .error e =>
      .error (if e.isEmpty then .initializationFunctionReverted init calldata else e)

mutual

/-- `delegatecall` of an account by the diamond. -/
def delegate (w : World Address σ) (sender : Address) :
    Msg Address → Address → State Address σ → Except (Failure Address) (State Address σ)
  | .diamondCut cuts init calldata, target, s => do
    match ← resolve w s (.diamondCut cuts init calldata) target with
    | .diamondCutFacet => do
      enforceIsContractOwner sender s
      let ds ← library (diamondCut w.this ⟨w.extcodesize, cuts, w.abi calldata⟩ s.ds)
      initializeDiamondCut w init calldata (delegate w sender calldata init) { s with ds := ds }
    | code => runPlain w sender (.diamondCut cuts init calldata) code s
  | .multiInit addresses calldata, target, s => do
    match ← resolve w s (.multiInit addresses calldata) target with
    | .diamondMultiInit => do
      guard (addresses.length = calldata.length)
        (.addressAndCalldataLengthDoNotMatch addresses.length calldata.length)
      delegateAll w sender calldata addresses s
    | code => runPlain w sender (.multiInit addresses calldata) code s
  | msg, target, s => do
    let code ← resolve w s msg target
    runPlain w sender msg code s

/-- The loop of `multiInit`. -/
def delegateAll (w : World Address σ) (sender : Address) :
    List (Msg Address) → List Address → State Address σ →
      Except (Failure Address) (State Address σ)
  | [], _, s => .ok s
  | _ :: _, [], s => .ok s
  | calldata :: rest, init :: inits, s => do
    let s ← initializeDiamondCut w init calldata (delegate w sender calldata init) s
    delegateAll w sender rest inits s

end

structure ExternalCall (Address : Type) where
  sender : Address
  msg : Msg Address

def exec (w : World Address σ) (c : ExternalCall Address) (s : State Address σ) :
    Except (Failure Address) (State Address σ) :=
  delegate w c.sender c.msg w.this s

/-- While its constructor runs, the diamond has no code yet. -/
def World.constructing (w : World Address σ) : World Address σ :=
  { w with code := Function.update w.code w.this .none }

/-- `constructor` -/
def construct (w : World Address σ) (deployer owner : Address) (cuts : List (FacetCut Address))
    (init : Address) (calldata : Msg Address) (app : σ) :
    Except (Failure Address) (State Address σ) := do
  let w := w.constructing
  let ds ← library (diamondCut w.this ⟨w.extcodesize, cuts, w.abi calldata⟩ empty)
  initializeDiamondCut w init calldata (delegate w deployer calldata init)
    ⟨ds, fun _ => false, owner, app⟩

/-- A call that reverts changes nothing. -/
def step (w : World Address σ) (s : State Address σ) (c : ExternalCall Address) :
    Option (State Address σ) :=
  some (Calls.apply (exec w) s c)

end NeonTests.Diamond
