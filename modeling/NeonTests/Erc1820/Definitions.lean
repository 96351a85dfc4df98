import NeonTests.Lib.Calls
import NeonTests.Lib.EvmMemory
import Mathlib.Logic.Function.Basic

/-!
# The ERC-1820 registry

`contracts/EIPs/ERC1820PseudoIntrospectionRegistry.sol`. What other contracts answer to a
static call is up to them: `Outside` is what they answer during one transaction, the
assembly's queries counted. Static calls change nothing. A transaction that runs out of gas
leaves no trace and is not in a run; what the queries may spend of the 30000 gas they get is
part of the answer.

A high-level call of another contract reverts if that has no code, reverts, or answers with
less than a word.
-/

namespace NeonTests.Erc1820

open Endian EvmMemory Fallible Solidity

abbrev Address := BitVec 160
abbrev Bytes4 := BitVec 32
abbrev Bytes32 := BitVec 256

def invalidId : Bytes4 := 0xffffffff

/-- `bytes4(keccak256('supportsInterface(bytes4)'))` -/
def erc165Id : Bytes4 := 0x01ffc9a7

/-- `keccak256(abi.encodePacked("ERC1820_ACCEPT_MAGIC"))` -/
def erc1820AcceptMagic : Bytes32 :=
  0xa2ef4600d742022d532d4747cb3547474667d6f13804902513b2ec01c848f4b4

/-- `bytes4` as `bytes32`: in front. -/
def Bytes4.toBytes32 (id : Bytes4) : Bytes32 := id.setWidth 256 <<< 224

/-- `bytes4(hash)` -/
def Bytes32.toBytes4 (hash : Bytes32) : Bytes4 := hash.extractLsb' 224 32

theorem Bytes4.toNat_toBytes32 (id : Bytes4) : id.toBytes32.toNat = 2 ^ 224 * id.toNat := by
  have := id.isLt
  rw [Bytes4.toBytes32, BitVec.toNat_shiftLeft, toNat_setWidth_of_le (by omega),
    Nat.shiftLeft_eq, Nat.mod_eq_of_lt (by omega), mul_comm]

theorem Bytes32.toNat_toBytes4 (hash : Bytes32) : hash.toBytes4.toNat = hash.toNat / 2 ^ 224 := by
  have := hash.isLt
  rw [Bytes32.toBytes4, BitVec.extractLsb'_toNat, Nat.shiftRight_eq_div_pow,
    Nat.mod_eq_of_lt (by omega)]

@[simp] theorem Bytes4.toBytes4_toBytes32 (id : Bytes4) : id.toBytes32.toBytes4 = id := by
  apply BitVec.eq_of_toNat_eq
  rw [Bytes32.toNat_toBytes4, Bytes4.toNat_toBytes32]
  omega

-- ---------------------------------------------------------------------------
-- The world
-- ---------------------------------------------------------------------------

structure Answer where
  success : Bool
  data : Bytes
  deriving DecidableEq, Repr

structure Outside where
  staticcall : Nat → Address → Bytes → Answer
  canImplementInterfaceForAddress : Address → Bytes32 → Address → Option Bytes32

inductive Event
  | interfaceImplementerSet (addr : Address) (interfaceHash : Bytes32) (implementer : Address)
  | managerChanged (addr newManager : Address)
  deriving DecidableEq, Repr

/-- The storage and the events so far. -/
structure Registry where
  interfaces : Address → Bytes32 → Address
  managers : Address → Address
  erc165Cached : Address → Bytes4 → Bool
  logs : List Event

def deployed : Registry where
  interfaces _ _ := 0
  managers _ := 0
  erc165Cached _ _ := false
  logs := []

-- ---------------------------------------------------------------------------
-- ERC-165
-- ---------------------------------------------------------------------------

/-- Nothing is allocated yet. -/
def initialMemory : Memory := write (fun _ => 0) 0x40 (wordBytes 0x80)

/-- The answer is stored over the question. -/
def noThrowCall (staticcall : Address → Bytes → Answer) (m : Memory) (_contract : Address)
    (_interfaceId : Bytes4) : Memory × Uint256 × Uint256 :=
  let x := wordOf (read m 0x40 32)
  let m := write m x.toNat (wordBytes erc165Id.toBytes32)
  let m := write m (x + 0x04).toNat (wordBytes _interfaceId.toBytes32)
  let answer := staticcall _contract (read m x.toNat 0x24)
  let m := write m x.toNat (answer.data.take 0x20)
  (m, if answer.success then 1 else 0, wordOf (read m x.toNat 32))

def implementsERC165InterfaceNoCache (outside : Outside) (_contract : Address)
    (_interfaceId : Bytes4) : Bool :=
  let (m, success, result) := noThrowCall (outside.staticcall 0) initialMemory _contract erc165Id
  if success = 0 ∨ result = 0 then false
  else
    let (m, success, result) := noThrowCall (outside.staticcall 1) m _contract invalidId
    if success = 0 ∨ result ≠ 0 then false
    else
      let (_, success, result) := noThrowCall (outside.staticcall 2) m _contract _interfaceId
      if success = 1 ∧ result = 1 then true else false

def isERC165Interface (_interfaceHash : Bytes32) : Bool :=
  _interfaceHash &&& 0x00000000FFFFFFFFFFFFFFFFFFFFFFFFFFFFFFFFFFFFFFFFFFFFFFFFFFFFFFFF = 0

/-- It ends with 28 zeros. -/
theorem isERC165Interface_iff {hash : Bytes32} :
    isERC165Interface hash = true ↔ hash.toNat % 2 ^ 224 = 0 := by
  rw [isERC165Interface, decide_eq_true_eq, ← BitVec.toNat_inj, BitVec.toNat_and,
    show BitVec.toNat (0x00000000FFFFFFFFFFFFFFFFFFFFFFFFFFFFFFFFFFFFFFFFFFFFFFFFFFFFFFFF :
      Bytes32) = 2 ^ 224 - 1 from rfl, Nat.and_two_pow_sub_one_eq_mod]
  rfl

theorem isERC165Interface_toBytes32 (id : Bytes4) : isERC165Interface id.toBytes32 = true := by
  rw [isERC165Interface_iff, Bytes4.toNat_toBytes32, Nat.mul_mod_right]

theorem toBytes32_ne {hash : Bytes32} (h : isERC165Interface hash = false) (id : Bytes4) :
    hash ≠ id.toBytes32 := by
  rintro rfl
  rw [isERC165Interface_toBytes32] at h
  cases h

namespace Registry

variable (r : Registry)

def implementsERC165Interface (outside : Outside) (_contract : Address) (_interfaceId : Bytes4) :
    Bool :=
  if ¬r.erc165Cached _contract _interfaceId then
    implementsERC165InterfaceNoCache outside _contract _interfaceId
  else
    r.interfaces _contract _interfaceId.toBytes32 = _contract

def getManager (_addr : Address) : Address :=
  if r.managers _addr = 0 then _addr else r.managers _addr

/-- The zero address stands for the sender. -/
def orSender (sender _addr : Address) : Address := if _addr = 0 then sender else _addr

def getInterfaceImplementer (sender : Address) (outside : Outside) (_addr : Address)
    (_interfaceHash : Bytes32) : Address :=
  let addr := orSender sender _addr
  if isERC165Interface _interfaceHash then
    if r.implementsERC165Interface outside addr _interfaceHash.toBytes4 then addr else 0
  else r.interfaces addr _interfaceHash

def setInterface (addr : Address) (hash : Bytes32) (implementer : Address) : Registry :=
  { r with
    interfaces := Function.update r.interfaces addr
      (Function.update (r.interfaces addr) hash implementer) }

def emit (event : Event) : Registry := { r with logs := r.logs ++ [event] }

/-- Whether `_implementer` accepts; the manager and nobody are not asked. -/
def accepts (sender : Address) (outside : Outside) (addr : Address) (_interfaceHash : Bytes32)
    (_implementer : Address) : Except Revert Unit :=
  if _implementer ≠ 0 ∧ _implementer ≠ sender then
    match outside.canImplementInterfaceForAddress _implementer _interfaceHash addr with
    | none => .error .empty
    | some answer => require (answer = erc1820AcceptMagic) "Does not implement the interface"
  else .ok ()

def setInterfaceImplementer (sender : Address) (outside : Outside) (_addr : Address)
    (_interfaceHash : Bytes32) (_implementer : Address) : Except Revert Registry := do
  let addr := orSender sender _addr
  require (r.getManager addr = sender) "Not the manager"
  require (¬isERC165Interface _interfaceHash) "Must not be an ERC165 hash"
  accepts sender outside addr _interfaceHash _implementer
  return (r.setInterface addr _interfaceHash _implementer).emit
    (.interfaceImplementerSet addr _interfaceHash _implementer)

def setManager (sender _addr _newManager : Address) : Except Revert Registry := do
  require (r.getManager _addr = sender) "Not the manager"
  let managers := Function.update r.managers _addr
    (if _newManager = _addr then 0 else _newManager)
  return { r with managers }.emit (.managerChanged _addr _newManager)

def updateERC165Cache (outside : Outside) (_contract : Address) (_interfaceId : Bytes4) :
    Registry :=
  let r := r.setInterface _contract _interfaceId.toBytes32
    (if implementsERC165InterfaceNoCache outside _contract _interfaceId then _contract else 0)
  { r with
    erc165Cached := Function.update r.erc165Cached _contract
      (Function.update (r.erc165Cached _contract) _interfaceId true) }

end Registry

-- ---------------------------------------------------------------------------
-- Transactions
-- ---------------------------------------------------------------------------

inductive Call
  | setInterfaceImplementer (_addr : Address) (_interfaceHash : Bytes32) (_implementer : Address)
  | setManager (_addr _newManager : Address)
  | updateERC165Cache (_contract : Address) (_interfaceId : Bytes4)
  deriving DecidableEq, Repr

structure Tx where
  sender : Address
  outside : Outside
  call : Call

def exec (tx : Tx) (r : Registry) : Except Revert Registry :=
  match tx.call with
  | .setInterfaceImplementer _addr _interfaceHash _implementer =>
    r.setInterfaceImplementer tx.sender tx.outside _addr _interfaceHash _implementer
  | .setManager _addr _newManager => r.setManager tx.sender _addr _newManager
  | .updateERC165Cache _contract _interfaceId =>
    .ok (r.updateERC165Cache tx.outside _contract _interfaceId)

end NeonTests.Erc1820
