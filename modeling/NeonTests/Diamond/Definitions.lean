import NeonTests.Lib.Batch
import NeonTests.Lib.Calls
import NeonTests.Lib.Solidity

/-!
# The diamond — selectors and their facets

`contracts/EIPs/EIP2535/libraries/LibDiamond.sol`, compiled by 0.8.10. A diamond sends a
call to the facet its selector belongs to. `diamondCut` adds, replaces and removes
selectors; it keeps them in an array, and for each the place it has there.

Of the storage, `supportedInterfaces` and `contractOwner` are left out: no function here
reads them. `_init` is the zero address, so that `initializeDiamondCut` returns at once.
-/

namespace NeonTests.Diamond

open Batch Fallible Solidity

-- ---------------------------------------------------------------------------
-- Storage
-- ---------------------------------------------------------------------------

/-- `bytes4` -/
abbrev Selector := BitVec 32

inductive FacetCutAction
  | add
  | replace
  | remove
  deriving DecidableEq, Repr

structure FacetCut (Address : Type) where
  facetAddress : Address
  action : FacetCutAction
  functionSelectors : List Selector
  deriving DecidableEq, Repr

/-- The errors of the library, and the panics of the compiler. No action is left for
`IncorrectFacetCutAction`. -/
inductive Error (Address : Type)
  | noSelectorsProvidedForFacetForCut (facetAddress : Address)
  | cannotAddSelectorsToZeroAddress (selectors : List Selector)
  | noBytecodeAtAddress (contractAddress : Address) (message : String)
  | cannotAddFunctionToDiamondThatAlreadyExists (selector : Selector)
  | cannotReplaceFunctionsFromFacetWithZeroAddress (selectors : List Selector)
  | cannotReplaceImmutableFunction (selector : Selector)
  | cannotReplaceFunctionWithTheSameFunctionFromTheSameFacet (selector : Selector)
  | cannotReplaceFunctionThatDoesNotExists (selector : Selector)
  | removeFacetAddressMustBeZeroAddress (facetAddress : Address)
  | cannotRemoveFunctionThatDoesNotExist (selector : Selector)
  | cannotRemoveImmutableFunction (selector : Selector)
  | panic (reason : Revert)
  deriving DecidableEq, Repr

inductive Event (Address : Type)
  | log (selector : Selector)
  | diamondCut (diamondCut : List (FacetCut Address)) (calldata : List (BitVec 8))
  deriving DecidableEq, Repr

structure FacetAddressAndSelectorPosition (Address : Type) where
  facetAddress : Address
  selectorPosition : Uint16
  deriving DecidableEq, Repr

structure DiamondStorage (Address : Type) where
  facetAddressAndSelectorPosition : Selector → FacetAddressAndSelectorPosition Address
  selectors : List Selector
  log : List (Event Address)

variable {Address : Type}

def emit (e : Event Address) (ds : DiamondStorage Address) : DiamondStorage Address :=
  { ds with log := ds.log ++ [e] }

/-- `ds.facetAddressAndSelectorPosition[selector] = entry` -/
def setEntry (selector : Selector) (entry : FacetAddressAndSelectorPosition Address)
    (ds : DiamondStorage Address) : DiamondStorage Address :=
  { ds with
    facetAddressAndSelectorPosition :=
      Function.update ds.facetAddressAndSelectorPosition selector entry }

/-- `facetAddress(selector)` of the loupe; the fallback function reads the same. -/
def facetAddress (ds : DiamondStorage Address) (selector : Selector) : Address :=
  (ds.facetAddressAndSelectorPosition selector).facetAddress

def selectorPosition (ds : DiamondStorage Address) (selector : Selector) : Uint16 :=
  (ds.facetAddressAndSelectorPosition selector).selectorPosition

variable [Zero Address]

def empty : DiamondStorage Address where
  facetAddressAndSelectorPosition _ := ⟨0, 0⟩
  selectors := []
  log := []

variable [DecidableEq Address]

/-- What a call finds: `address(this)` and the code sizes of that moment. -/
structure Chain (Address : Type) where
  this : Address
  extcodesize : Address → Uint256

def enforceHasContractCode (chain : Chain Address) (contract : Address) (errorMessage : String) :
    Except (Error Address) Unit :=
  guard (chain.extcodesize contract ≠ 0) (.noBytecodeAtAddress contract errorMessage)

-- ---------------------------------------------------------------------------
-- Add
-- ---------------------------------------------------------------------------

/-- A round of the loop of `addFunctions`, with `selectorCount`. -/
def addFunction (facet : Address) (selector : Selector) :
    Uint16 × DiamondStorage Address → Except (Error Address) (Uint16 × DiamondStorage Address)
  | (selectorCount, ds) => do
    guard (facetAddress ds selector = 0) (.cannotAddFunctionToDiamondThatAlreadyExists selector)
    let ds := setEntry selector ⟨facet, selectorCount⟩ ds
    let ds := emit (.log selector) { ds with selectors := ds.selectors ++ [selector] }
    guard (selectorCount.toNat + 1 < 2 ^ 16) (.panic .overflow)
    return (selectorCount + 1, ds)

def addFunctions (chain : Chain Address) (facet : Address) (functionSelectors : List Selector)
    (ds : DiamondStorage Address) : Except (Error Address) (DiamondStorage Address) := do
  guard (facet ≠ 0) (.cannotAddSelectorsToZeroAddress functionSelectors)
  let selectorCount : Uint16 := BitVec.ofNat 16 ds.selectors.length
  enforceHasContractCode chain facet "LibDiamondCut: Add facet has no code"
  let (_, ds) ← fold (addFunction facet) functionSelectors (selectorCount, ds)
  return ds

-- ---------------------------------------------------------------------------
-- Replace
-- ---------------------------------------------------------------------------

/-- A round of the loop of `replaceFunctions`. -/
def replaceFunction (chain : Chain Address) (facet : Address) (selector : Selector)
    (ds : DiamondStorage Address) : Except (Error Address) (DiamondStorage Address) := do
  let oldFacetAddress := facetAddress ds selector
  guard (oldFacetAddress ≠ chain.this) (.cannotReplaceImmutableFunction selector)
  guard (oldFacetAddress ≠ facet)
    (.cannotReplaceFunctionWithTheSameFunctionFromTheSameFacet selector)
  guard (oldFacetAddress ≠ 0) (.cannotReplaceFunctionThatDoesNotExists selector)
  return setEntry selector ⟨facet, selectorPosition ds selector⟩ ds

def replaceFunctions (chain : Chain Address) (facet : Address)
    (functionSelectors : List Selector) (ds : DiamondStorage Address) :
    Except (Error Address) (DiamondStorage Address) := do
  guard (facet ≠ 0) (.cannotReplaceFunctionsFromFacetWithZeroAddress functionSelectors)
  enforceHasContractCode chain facet "LibDiamondCut: Replace facet has no code"
  fold (replaceFunction chain facet) functionSelectors ds

-- ---------------------------------------------------------------------------
-- Remove
-- ---------------------------------------------------------------------------

/-- `replace selector with last selector`, unless it is the last. -/
def replaceWithLastSelector (position : Uint16) (selectorCount : Nat)
    (ds : DiamondStorage Address) : Except (Error Address) (DiamondStorage Address) :=
  if position.toNat ≠ selectorCount then
    match ds.selectors[selectorCount]? with
    | none => .error (.panic .outOfBounds)
    | some lastSelector => do
      guard (position.toNat < ds.selectors.length) (.panic .outOfBounds)
      let ds := { ds with selectors := ds.selectors.set position.toNat lastSelector }
      return setEntry lastSelector ⟨facetAddress ds lastSelector, position⟩ ds
  else .ok ds

/-- A round of the loop of `removeFunctions`, with `selectorCount`. -/
def removeFunction (chain : Chain Address) (selector : Selector) :
    Nat × DiamondStorage Address → Except (Error Address) (Nat × DiamondStorage Address)
  | (selectorCount, ds) => do
    let oldFacetAddress := facetAddress ds selector
    let oldPosition := selectorPosition ds selector
    guard (oldFacetAddress ≠ 0) (.cannotRemoveFunctionThatDoesNotExist selector)
    guard (oldFacetAddress ≠ chain.this) (.cannotRemoveImmutableFunction selector)
    guard (selectorCount ≠ 0) (.panic .overflow)
    let selectorCount := selectorCount - 1
    let ds ← replaceWithLastSelector oldPosition selectorCount ds
    guard (ds.selectors ≠ []) (.panic .emptyArray)
    let ds := { ds with selectors := ds.selectors.dropLast }
    return (selectorCount, setEntry selector ⟨0, 0⟩ ds)

def removeFunctions (chain : Chain Address) (facet : Address) (functionSelectors : List Selector)
    (ds : DiamondStorage Address) : Except (Error Address) (DiamondStorage Address) := do
  let selectorCount := ds.selectors.length
  guard (facet = 0) (.removeFacetAddressMustBeZeroAddress facet)
  let (_, ds) ← fold (removeFunction chain) functionSelectors (selectorCount, ds)
  return ds

-- ---------------------------------------------------------------------------
-- Cuts
-- ---------------------------------------------------------------------------

/-- A round of the loop of `diamondCut`. -/
def cutFacet (chain : Chain Address) (cut : FacetCut Address) (ds : DiamondStorage Address) :
    Except (Error Address) (DiamondStorage Address) := do
  guard (cut.functionSelectors ≠ []) (.noSelectorsProvidedForFacetForCut cut.facetAddress)
  match cut.action with
  | .add => addFunctions chain cut.facetAddress cut.functionSelectors ds
  | .replace => replaceFunctions chain cut.facetAddress cut.functionSelectors ds
  | .remove => removeFunctions chain cut.facetAddress cut.functionSelectors ds

structure Call (Address : Type) where
  extcodesize : Address → Uint256
  diamondCut : List (FacetCut Address)
  calldata : List (BitVec 8)

def diamondCut (this : Address) (c : Call Address) (ds : DiamondStorage Address) :
    Except (Error Address) (DiamondStorage Address) := do
  let ds ← fold (cutFacet ⟨this, c.extcodesize⟩) c.diamondCut ds
  return emit (.diamondCut c.diamondCut c.calldata) ds

/-- Calls of `diamondCut` on the diamond at `this`, one after another. A call that reverts
changes nothing. -/
def cutAll (this : Address) (calls : List (Call Address)) (ds : DiamondStorage Address) :
    DiamondStorage Address :=
  Calls.applyAll (diamondCut this) calls ds

end NeonTests.Diamond
