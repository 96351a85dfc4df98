import NeonTests.Lib.Calls
import NeonTests.Lib.Script
import NeonTests.MetaProxy.Abi

/-!
# MetaProxy — the contract on its chain

All functions of `contracts/EIPs/MetaProxy.sol`, and the accounts they run in: the contract, and
proxies, which are bytes that the machine runs. A function calls its own account and the proxies
it creates, and these run the contract again by `DELEGATECALL`, in an account of their own. So a
call is a tree of calls, and `contractAt` is what an account does by the calls that may still be
nested in it.

A call that ends badly changes nothing, so it is enough to say for each whether its gas reaches
what the compiler writes around the assembly. Native balances are left out; what `abi.decode`
reverts with is taken as empty; `STATICCALL`, which the compiler chooses for `view` and `pure`
functions, is a call like the others, as these functions write nothing.
-/

namespace NeonTests.MetaProxy

open Endian Fallible Solidity EvmMemory Scripts

open Evm (Outcome)

-- ---------------------------------------------------------------------------
-- The chain
-- ---------------------------------------------------------------------------

structure ByteCode where
  bytes : Bytes
  length_lt : bytes.length < 2 ^ 64

inductive Code
  /-- The compiled contract. -/
  | metaProxy
  | bytes (code : ByteCode)

inductive Event
  | someEvent (md : Metadata)
  | someData (data : Bytes)

structure World where
  code : Address → Option Code
  someValue : Address → Uint256
  nonce : Address → Nat
  /-- Each event with the account that emitted it. -/
  log : List (Address × Event)
  /-- History: the accounts in which a call of `init` took effect. -/
  inits : List Address

/-- What a call can spend. -/
structure CallGas where
  gas : Gas
  gasReadings : Stream' Uint256
  /-- Whether it reaches for what the compiler writes around the assembly. -/
  reaches : Bool

/-- The gas of a call and of the calls nested in it, by their numbers. -/
abbrev GasTree := List Nat → CallGas

def GasTree.child (tree : GasTree) (k : Nat) : GasTree := fun path => tree (k :: path)

structure Chain where
  /-- The address that an account's next contract gets. -/
  createAddress : Address → Nat → Address
  keccak256 : Bytes → Uint256
  /-- How deep calls may be nested. -/
  callDepth : Nat

structure Message where
  /-- `address(this)` -/
  this : Address
  sender : Address
  value : Uint256

/-- How a call ends that does not return. -/
inductive Failure
  | reverted (data : Bytes)
  | failed (e : Evm.Exception)

abbrev Body (α : Type) := Script Failure World α

def requires (c : Prop) [Decidable c] : Body Unit := ensure c (.reverted [])

/-- `Panic(uint256)` -/
def panic (code : Nat) : Failure := .reverted ([0x4e, 0x48, 0x7b, 0x71] ++ beBytes 32 code)

def decoded {α : Type} (x : Option α) : Body α :=
  match x with
  | some a => pure a
  | none => fail (.reverted [])

def assembly {α : Type} (x : Except Halt α) : Body α :=
  match x with
  | .ok a => pure a
  | .error .outOfGas => fail (.failed .outOfGas)

def ByteCode.ofOutcome (outcome : Outcome World) (h : outcome.data.length < 2 ^ 64) :
    Option (ByteCode × World) :=
  match outcome with
  | .returned data w => some (⟨data, h⟩, w)
  | _ => none

/-- Run the init code; what it answers is the code of the account. -/
def runInitCode (gas : CallGas) (callee : Address → Evm.Contract World) (code : Bytes)
    (w : World) : Option (ByteCode × World) :=
  if hcode : code.length < 2 ^ 64 then
    let env := Evm.Contract.inside code hcode (fun _ target => callee target) [] (Nat.two_pow_pos 64)
    ByteCode.ofOutcome (Evm.call env gas.gas gas.gasReadings w)
      (Evm.length_data_call_lt env gas.gas gas.gasReadings w)
  else none

/-- `CREATE` by an account: the new address, or zero. -/
def createAccount (chain : Chain) (gas : CallGas) (callee : Address → Address → Evm.Contract World)
    (creator : Address) (code : Bytes) (w : World) : Address × World :=
  let address := chain.createAddress creator (w.nonce creator)
  let w := { w with nonce := Function.update w.nonce creator (w.nonce creator + 1) }
  if (w.code address).isSome then (0, w)
  else
    match runInitCode gas (callee address) code w with
    | some (deployed, w') =>
      (address, { w' with code := Function.update w'.code address (some (.bytes deployed)) })
    | none => (0, w)

-- ---------------------------------------------------------------------------
-- A call of the contract
-- ---------------------------------------------------------------------------

/-- What a call of the contract runs with; `contract` is what the code at an address does in the
call's `k`-th nested call. -/
structure Host where
  chain : Chain
  gas : GasTree
  message : Message
  calldata : Bytes
  contract : Nat → Address → Message → Evm.Contract World

inductive Function
  | someValue
  | init
  | createFromBytes
  | createFromCalldata
  | getMetadataWithoutCall
  | getMetadataViaCall
  | testCreateFromCalldataGetMetadataViaCall
  | testCreateFromCalldataGetMetadataWithoutCall
  | testCreateFromCalldataReturnSingleValue
  | testCreateFromCalldataReturnMultiValues
  | testCreateFromCalldataReturnRevert
  | getProxyFromCalldata
  | testCreateFromBytesGetMetadataViaCall
  | testCreateFromBytesGetMetadataWithoutCall
  | testCreateFromBytesReturnSingleValue
  | testCreateFromBytesReturnMultiValues
  | testCreateFromBytesReturnRevert
  | getProxyFromBytes
  | abc
  | testReturnSingle
  | testReturnMulti
  | testRevert
  deriving DecidableEq, Repr

def Function.selector : Function → Bytes
  | someValue => [0x4a, 0x62, 0x7e, 0x61]
  | init => [0xe1, 0xc7, 0x39, 0x2a]
  | createFromBytes => [0xc2, 0xdf, 0xd3, 0x91]
  | createFromCalldata => [0x4c, 0x63, 0x37, 0xbf]
  | getMetadataWithoutCall => [0x53, 0xb9, 0x51, 0x5e]
  | getMetadataViaCall => [0x1c, 0xd2, 0x8c, 0x37]
  | testCreateFromCalldataGetMetadataViaCall => [0x02, 0x2c, 0x99, 0x5a]
  | testCreateFromCalldataGetMetadataWithoutCall => [0x6a, 0xaa, 0x70, 0x9c]
  | testCreateFromCalldataReturnSingleValue => [0x13, 0xef, 0xa3, 0x62]
  | testCreateFromCalldataReturnMultiValues => [0x91, 0x22, 0xe0, 0x24]
  | testCreateFromCalldataReturnRevert => [0x99, 0xb9, 0x51, 0x80]
  | getProxyFromCalldata => [0x4c, 0x0f, 0xba, 0x40]
  | testCreateFromBytesGetMetadataViaCall => [0xf2, 0xfb, 0xcb, 0xaa]
  | testCreateFromBytesGetMetadataWithoutCall => [0x30, 0x87, 0x73, 0xb5]
  | testCreateFromBytesReturnSingleValue => [0x0b, 0x73, 0xa5, 0xb4]
  | testCreateFromBytesReturnMultiValues => [0x58, 0x45, 0x69, 0x2f]
  | testCreateFromBytesReturnRevert => [0x85, 0x9e, 0x6a, 0x57]
  | getProxyFromBytes => [0x96, 0x2b, 0x7a, 0x55]
  | abc => [0x92, 0x27, 0x79, 0x33]
  | testReturnSingle => [0x57, 0x7b, 0xf8, 0x2a]
  | testReturnMulti => [0xc5, 0x35, 0xdf, 0x43]
  | testRevert => [0xd8, 0xbb, 0x84, 0x28]

def Function.all : List Function :=
  [someValue, init, createFromBytes, createFromCalldata, getMetadataWithoutCall,
    getMetadataViaCall, testCreateFromCalldataGetMetadataViaCall,
    testCreateFromCalldataGetMetadataWithoutCall, testCreateFromCalldataReturnSingleValue,
    testCreateFromCalldataReturnMultiValues, testCreateFromCalldataReturnRevert,
    getProxyFromCalldata, testCreateFromBytesGetMetadataViaCall,
    testCreateFromBytesGetMetadataWithoutCall, testCreateFromBytesReturnSingleValue,
    testCreateFromBytesReturnMultiValues, testCreateFromBytesReturnRevert, getProxyFromBytes,
    abc, testReturnSingle, testReturnMulti, testRevert]

def functionOf (calldata : Bytes) : Option Function :=
  Function.all.find? fun f => calldata.take 4 = f.selector

theorem Function.length_selector (f : Function) : f.selector.length = 4 := by
  cases f <;> rfl

theorem functionOf_selector (f : Function) (args : Bytes) :
    functionOf (f.selector ++ args) = some f := by
  cases f <;> rfl

namespace Host

variable (h : Host)

def this : Address := h.message.this

def own : CallGas := h.gas []

/-- `target.call{value: value}(data)` -/
def rawCall (k : Nat) (target : Address) (value : Uint256) (data : Bytes) : Body (Bool × Bytes) :=
  step fun w =>
    match (h.contract k target ⟨target, h.this, value⟩).answer data w with
    | .returned bytes w' => (.ok (true, bytes), w')
    | outcome => (.ok (false, outcome.data), w)

/-- A call that passes on what it reverted with. -/
def call (k : Nat) (target : Address) (value : Uint256) (data : Bytes) : Body Bytes := do
  let (success, bytes) ← h.rawCall k target value data
  if success = true then return bytes else fail (.reverted bytes)

/-- The compiler looks for code where it expects no answer. -/
def hasCode (target : Address) : Body Unit := do
  let code ← read fun w => w.code target
  requires (code.isSome = true)

def create (k : Nat) (code : Bytes) : Body Address :=
  step fun w =>
    let created := createAccount h.chain (h.gas.child k [])
      (fun address target => h.contract k target ⟨address, h.this, 0⟩) h.this code w
    (.ok created.1, created.2)

def getSomeValue : Body Uint256 := read fun w => w.someValue h.this

def setSomeValue (b : Uint256) : Body Unit :=
  write fun w => { w with
    someValue := Function.update w.someValue h.this b
    inits := w.inits ++ [h.this] }

def emit (event : Event) : Body Unit :=
  write fun w => { w with log := w.log ++ [(h.this, event)] }

def nonPayable : Body Unit := requires (h.message.value = 0)

/-- The memory with the free-memory pointer at `p`. -/
def freeFrom (p : Nat) : Memory := write (fun _ => 0) 64 (wordBytes (BitVec.ofNat 256 p))

/-- The same with a `bytes` value at the start of the memory that functions allocate from. -/
def memoryWith (bs : Bytes) : Memory :=
  write (freeFrom (128 + (encodeBytes bs).length)) 128 (encodeBytes bs)

-- ---------------------------------------------------------------------------
-- Reading the metadata
-- ---------------------------------------------------------------------------

/-- `MetaProxy(target).getMetadataViaCall()` and `MetaProxy(target).getMetadataWithoutCall()` -/
def metadataOf (k : Nat) (target : Address) (f : Function) : Body Metadata := do
  let bytes ← h.call k target 0 f.selector
  decoded (decode bytes)

def getMetadataViaCall : Body Bytes :=
  assembly (MetaProxy.getMetadataViaCall h.own.gas (freeFrom 128) h.calldata)

/-- With the free-memory pointer where the function's parameters end. -/
def getMetadataWithoutCall (p : Nat) : Body Metadata := do
  let (m, data) ← assembly (MetaProxy.getMetadataWithoutCall h.own.gas (freeFrom p) h.calldata)
  let size := wordOf (EvmMemory.read m data.toNat 32)
  decoded (decode (EvmMemory.read m (data + 32).toNat size.toNat))

-- ---------------------------------------------------------------------------
-- Creating proxies
-- ---------------------------------------------------------------------------

def init : Body Unit := do
  let someValue ← h.getSomeValue
  requires (someValue = 0)
  let md ← h.metadataOf 0 h.this .getMetadataViaCall
  requires (0 < md.b)
  h.setSomeValue md.b

/-- What `createFromBytes` and `createFromCalldata` do with a new proxy. -/
def createInitialised (creation : Except Halt Creation) : Body Address := do
  let creation ← assembly creation
  let proxy ← h.create 0 creation.initCode
  requires (proxy ≠ 0)
  -- optional one-time setup, a constructor() substitute
  hasCode proxy
  let _ ← h.call 1 proxy h.message.value Function.init.selector
  return proxy

def createFromBytes (md : Metadata) : Body Address :=
  h.createInitialised (metaProxyFromBytes h.own.gas (memoryWith (encode md)) h.this 128)

def createFromCalldata : Body Address :=
  h.createInitialised (metaProxyFromCalldata h.own.gas (freeFrom 128) h.calldata h.this)

/-- `self.createFromCalldata(a, b, c)` and `self.createFromBytes(c, b, a)`, which are the first
call where they stand. -/
def selfCreated (f : Function) (args : Bytes) : Body Address := do
  let bytes ← h.call 0 h.this 0 (f.selector ++ args)
  let proxy ← decoded (decodeAddress bytes)
  requires (proxy ≠ 0)
  return proxy

def getProxyFromCalldata (md : Metadata) : Body Address :=
  h.selfCreated .createFromCalldata (encode md)

def getProxyFromBytes (md : Metadata) : Body Address :=
  h.selfCreated .createFromBytes (encodeReversed md)

-- ---------------------------------------------------------------------------
-- What runs inside the proxies of the tests
-- ---------------------------------------------------------------------------

def abc : Metadata := ⟨h.this, 0xc0ffe, List.replicate 9 0⟩

/-- `hex"68656c6c6f20776f726c64"` -/
def helloWorld : Bytes := [0x68, 0x65, 0x6c, 0x6c, 0x6f, 0x20, 0x77, 0x6f, 0x72, 0x6c, 0x64]

def checkAbc (md : Metadata) : Body Unit := do
  let someValue ← h.getSomeValue
  requires (md.a = h.message.sender)
  requires (md.b = someValue)
  requires (md.c.length = 9)

/-- `uint160(a) + b` -/
def sum (a : Address) (b : Uint256) : Body Uint256 :=
  match checkedAdd (a.setWidth 256) b with
  | .ok xyz => pure xyz
  | .error _ => fail (panic 0x11)

def testReturnSingle : Body Uint256 := do
  let md ← h.metadataOf 0 h.this .getMetadataViaCall
  h.checkAbc md
  h.emit (.someEvent md)
  return md.b

def testReturnMulti (data : Bytes) (xyz : Uint256) : Body (Uint256 × List Uint256) := do
  let md ← h.getMetadataWithoutCall (128 + (encodeBytes data).length)
  h.checkAbc md
  let expected ← sum md.a md.b
  requires (xyz = expected)
  -- the lengths, and then byte by byte
  requires (data = helloWorld)
  h.emit (.someEvent md)
  h.emit (.someData data)
  return (md.b, md.c)

/-- `Error(string)` -/
def errorString (data : Bytes) : Bytes := [0x08, 0xc3, 0x79, 0xa0] ++ encodeString data

def testRevert (data : Bytes) : Body Unit := do
  let md ← h.getMetadataWithoutCall (128 + (encodeBytes data).length)
  if md.a ≠ 0 then fail (.reverted (errorString data)) else pure ()

-- ---------------------------------------------------------------------------
-- The tests
-- ---------------------------------------------------------------------------

/-- `this.getProxyFromCalldata(a, b, c)` and `this.getProxyFromBytes(a, b, c)` -/
def proxyFrom (f : Function) : Body Address := do
  let bytes ← h.call 0 h.this 0 (f.selector ++ encode h.abc)
  decoded (decodeAddress bytes)

def testGetMetadata (way get : Function) : Body Metadata := do
  let proxy ← h.proxyFrom way
  h.metadataOf 1 proxy get

def testReturnSingleValue (way : Function) : Body Uint256 := do
  let proxy ← h.proxyFrom way
  let bytes ← h.call 1 proxy 0 Function.someValue.selector
  let someValue ← decoded (decodeUint bytes)
  requires (someValue = h.abc.b)
  let bytes ← h.call 2 proxy 0 Function.testReturnSingle.selector
  decoded (decodeUint bytes)

def testReturnMultiValues (way : Function) : Body (Uint256 × List Uint256) := do
  let proxy ← h.proxyFrom way
  let xyz ← sum h.this h.abc.b
  let bytes ← h.call 1 proxy 0
    (Function.testReturnMulti.selector ++ encodeBytesUint helloWorld xyz)
  decoded (decodeMulti bytes)

def testReturnRevert (way : Function) (args : Bytes) : Body Bool := do
  let proxy ← h.selfCreated way args
  let (success, returnData) ← h.rawCall 1 proxy 0
    (Function.testRevert.selector ++ encodeString helloWorld)
  requires (h.chain.keccak256 returnData = h.chain.keccak256 (errorString helloWorld))
  return success

def testCreateFromCalldataGetMetadataViaCall : Body Metadata :=
  h.testGetMetadata .getProxyFromCalldata .getMetadataViaCall

def testCreateFromCalldataGetMetadataWithoutCall : Body Metadata :=
  h.testGetMetadata .getProxyFromCalldata .getMetadataWithoutCall

def testCreateFromCalldataReturnSingleValue : Body Uint256 :=
  h.testReturnSingleValue .getProxyFromCalldata

def testCreateFromCalldataReturnMultiValues : Body (Uint256 × List Uint256) :=
  h.testReturnMultiValues .getProxyFromCalldata

def testCreateFromCalldataReturnRevert : Body Bool :=
  h.testReturnRevert .createFromCalldata (encode h.abc)

def testCreateFromBytesGetMetadataViaCall : Body Metadata :=
  h.testGetMetadata .getProxyFromBytes .getMetadataViaCall

def testCreateFromBytesGetMetadataWithoutCall : Body Metadata :=
  h.testGetMetadata .getProxyFromBytes .getMetadataWithoutCall

def testCreateFromBytesReturnSingleValue : Body Uint256 :=
  h.testReturnSingleValue .getProxyFromBytes

def testCreateFromBytesReturnMultiValues : Body (Uint256 × List Uint256) :=
  h.testReturnMultiValues .getProxyFromBytes

def testCreateFromBytesReturnRevert : Body Bool :=
  h.testReturnRevert .createFromBytes (encodeReversed h.abc)

-- ---------------------------------------------------------------------------
-- Calls by selector
-- ---------------------------------------------------------------------------

def args : Bytes := h.calldata.drop 4

def addressAnswer (x : Body Address) : Body Bytes := do
  let a ← x
  return addressWord a

def uintAnswer (x : Body Uint256) : Body Bytes := do
  let b ← x
  return wordBytes b

def metadataAnswer (x : Body Metadata) : Body Bytes := do
  let md ← x
  return encode md

def multiAnswer (x : Body (Uint256 × List Uint256)) : Body Bytes := do
  let (b, c) ← x
  return encodeMulti b c

def boolAnswer (x : Body Bool) : Body Bytes := do
  let success ← x
  return wordBytes (if success then 1 else 0)

def noAnswer (x : Body Unit) : Body Bytes := do
  x
  return []

def run : Function → Body Bytes
  | .someValue => do h.nonPayable; uintAnswer h.getSomeValue
  | .init => noAnswer h.init
  | .createFromBytes => do
    let md ← decoded (decodeReversed h.args)
    addressAnswer (h.createFromBytes md)
  | .createFromCalldata => do
    let _ ← decoded (decode h.args)
    addressAnswer h.createFromCalldata
  | .getMetadataWithoutCall => do
    h.nonPayable
    metadataAnswer (h.getMetadataWithoutCall 128)
  | .getMetadataViaCall => do h.nonPayable; h.getMetadataViaCall
  | .testCreateFromCalldataGetMetadataViaCall =>
    metadataAnswer h.testCreateFromCalldataGetMetadataViaCall
  | .testCreateFromCalldataGetMetadataWithoutCall =>
    metadataAnswer h.testCreateFromCalldataGetMetadataWithoutCall
  | .testCreateFromCalldataReturnSingleValue =>
    uintAnswer h.testCreateFromCalldataReturnSingleValue
  | .testCreateFromCalldataReturnMultiValues =>
    multiAnswer h.testCreateFromCalldataReturnMultiValues
  | .testCreateFromCalldataReturnRevert => boolAnswer h.testCreateFromCalldataReturnRevert
  | .getProxyFromCalldata => do
    let md ← decoded (decode h.args)
    addressAnswer (h.getProxyFromCalldata md)
  | .testCreateFromBytesGetMetadataViaCall =>
    metadataAnswer h.testCreateFromBytesGetMetadataViaCall
  | .testCreateFromBytesGetMetadataWithoutCall =>
    metadataAnswer h.testCreateFromBytesGetMetadataWithoutCall
  | .testCreateFromBytesReturnSingleValue => uintAnswer h.testCreateFromBytesReturnSingleValue
  | .testCreateFromBytesReturnMultiValues => multiAnswer h.testCreateFromBytesReturnMultiValues
  | .testCreateFromBytesReturnRevert => boolAnswer h.testCreateFromBytesReturnRevert
  | .getProxyFromBytes => do
    let md ← decoded (decode h.args)
    addressAnswer (h.getProxyFromBytes md)
  | .abc => do h.nonPayable; metadataAnswer (pure h.abc)
  | .testReturnSingle => do h.nonPayable; uintAnswer h.testReturnSingle
  | .testReturnMulti => do
    h.nonPayable
    let (data, xyz) ← decoded (decodeBytesUint h.args)
    multiAnswer (h.testReturnMulti data xyz)
  | .testRevert => do
    h.nonPayable
    let data ← decoded (decodeString h.args)
    noAnswer (h.testRevert data)

/-- There is no fallback function. -/
def dispatch : Body Bytes :=
  match functionOf h.calldata with
  | some f => h.run f
  | none => fail (.reverted [])

/-- An answer stands in the call's memory. -/
def bounded (outcome : Outcome World) : Outcome World :=
  if outcome.data.length ≤ h.own.gas.memory then outcome else .failed .outOfGas

def answer (w : World) : Outcome World :=
  -- longer calldata is nothing that gas could have paid for
  if h.own.reaches = true ∧ h.calldata.length < 2 ^ 64 then
    match exec h.dispatch w with
    | (.ok bytes, w') => h.bounded (.returned bytes w')
    | (.error (.reverted data), _) => h.bounded (.reverted data)
    | (.error (.failed e), _) => .failed e
  else .failed .outOfGas

theorem length_bounded_lt (outcome : Outcome World) : (h.bounded outcome).data.length < 2 ^ 64 := by
  unfold bounded
  split
  · next hle => exact lt_of_le_of_lt hle h.own.gas.memory_lt
  · exact Nat.two_pow_pos 64

theorem length_answer_lt (w : World) : (h.answer w).data.length < 2 ^ 64 := by
  unfold answer
  split
  · split
    · exact h.length_bounded_lt _
    · exact h.length_bounded_lt _
    · exact Nat.two_pow_pos 64
  · exact Nat.two_pow_pos 64

end Host

-- ---------------------------------------------------------------------------
-- Accounts and transactions
-- ---------------------------------------------------------------------------

/-- No call is nested any deeper. -/
def exhausted : Evm.Contract World := ⟨fun _ _ => .failed .outOfGas, fun _ _ => Nat.two_pow_pos 64⟩

/-- What an account does for a call, and what its code does in another account. -/
def Code.contract (chain : Chain) (gas : GasTree) (message : Message)
    (nested : Nat → Address → Message → Evm.Contract World) : Code → Evm.Contract World
  | .bytes code =>
    Evm.Contract.ofCode code.bytes code.length_lt (gas []).gas (gas []).gasReadings
      fun _ target => nested 0 target message
  | .metaProxy => {
      answer := fun calldata => (Host.mk chain gas message calldata nested).answer
      data_lt := fun calldata => (Host.mk chain gas message calldata nested).length_answer_lt }

/-- An account whose code is looked up when it is called. -/
def ofWorld (contract : World → Evm.Contract World) : Evm.Contract World where
  answer calldata w := (contract w).answer calldata w
  data_lt calldata w := (contract w).data_lt calldata w

/-- An account without code answers nothing. -/
def noCode : Evm.Contract World := ⟨fun _ w => .returned [] w, fun _ _ => Nat.two_pow_pos 64⟩

/-- What the code at an address does for a message, with calls nested up to a depth. -/
def contractAt (chain : Chain) : Nat → GasTree → Address → Message → Evm.Contract World
  | 0, _, _, _ => exhausted
  | depth + 1, gas, address, message => ofWorld fun w =>
    match w.code address with
    | some code => code.contract chain gas message fun k => contractAt chain depth (gas.child k)
    | none => noCode

inductive Transaction
  | call (sender account : Address) (value : Uint256) (calldata : Bytes)
  /-- A proxy that another contract makes with the factory, of any target. -/
  | deploy (creator targetContract : Address) (metadata : Bytes)

/-- A transaction with the gas of its calls; one that does not return changes nothing. -/
def execute (chain : Chain) (tx : Transaction × GasTree) (w : World) : Except Bytes World :=
  match tx.1 with
  | .call sender account value calldata =>
    let contract := contractAt chain chain.callDepth tx.2 account ⟨account, sender, value⟩
    match contract.answer calldata w with
    | .returned _ w' => .ok w'
    | outcome => .error outcome.data
  | .deploy creator targetContract metadata =>
    .ok (createAccount chain (tx.2 [])
      (fun address target => contractAt chain chain.callDepth (tx.2.child 0) target
        ⟨address, creator, 0⟩) creator (initCode targetContract metadata) w).2

/-- A chain with the contract on it and nothing else. -/
def deployed (contract : Address) : World where
  code := Function.update (fun _ => none) contract (some .metaProxy)
  someValue _ := 0
  nonce _ := 0
  log := []
  inits := []

end NeonTests.MetaProxy
