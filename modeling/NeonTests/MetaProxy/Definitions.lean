import NeonTests.Lib.EvmMemory

/-!
# MetaProxy — constructors of proxies with metadata

`contracts/EIPs/EIP3448MetaProxyFactory.sol`. Each constructor lays the init code
out in memory from the free-memory pointer on and passes it to `create`; the result
here is what `create` is passed, the address is what the chain answers to it. The
pointers are 256-bit words whose additions wrap.
-/

namespace NeonTests.MetaProxy

open Endian Fallible Solidity EvmMemory

abbrev Address := BitVec 160

/-- Deploy code (11 bytes) and the first part of the proxy (21 bytes). -/
def deployCode : Uint256 :=
  0x600b380380600b3d393df3363d3d373d3d3d3d60368038038091363936013d73

/-- The remaining proxy code, 13 bytes at the front of the word. -/
def remainingCode : Uint256 :=
  0x5af43d3d93803e603457fd5bf300000000000000000000000000000000000000

-- ---------------------------------------------------------------------------
-- What both constructors do
-- ---------------------------------------------------------------------------

/-- The three stores in front of the metadata; each overwrites what the one before
it left too much. -/
def storeProxyCode (gas : Gas) (m : Memory) (start : Uint256) (targetContract : Address) :
    Except Halt Memory := do
  let m ← mstore gas m start deployCode
  let m ← mstore gas m (start + 32) (targetContract.setWidth 256 <<< 96)
  mstore gas m (start + 32 + 20) remainingCode

/-- The pointer behind the proxy code. -/
def metadataPtr (start : Uint256) : Uint256 := start + 32 + 20 + 13

/-- Store the size of the metadata at the end of the bytecode, then create. -/
def createProxy (gas : Gas) (m : Memory) (start ptr size : Uint256) : Except Halt Creation := do
  let m ← mstore gas m ptr size
  create gas m 0 start (ptr + 32 - start)

-- ---------------------------------------------------------------------------
-- Metadata from calldata
-- ---------------------------------------------------------------------------

def calldatasize (calldata : Bytes) : Uint256 := BitVec.ofNat 256 calldata.length

def metaProxyFromCalldata (gas : Gas) (m : Memory) (calldata : Bytes)
    (targetContract : Address) : Except Halt Creation := do
  let start ← mload gas m 64
  let m ← storeProxyCode gas m start targetContract
  -- the selector's 4 bytes are not metadata
  let m ← calldatacopy gas m calldata (metadataPtr start) 4 (calldatasize calldata - 4)
  createProxy gas m start (metadataPtr start + (calldatasize calldata - 4))
    (calldatasize calldata - 4)

-- ---------------------------------------------------------------------------
-- Metadata from memory
-- ---------------------------------------------------------------------------

/-- `for { } lt(i, length) { i := add(i, 32) }`, a word a round. -/
def copyWords (gas : Gas) (ptr offset length : Uint256) :
    Nat → Memory → Uint256 → Except Halt Memory
  | 0, m, i => if i < length then .error .outOfGas else .ok m
  | rounds + 1, m, i =>
    if i < length then do
      let word ← mload gas m (offset + i)
      let m ← mstore gas m (ptr + i) word
      copyWords gas ptr offset length rounds m (i + 32)
    else .ok m

def metaProxyFromMemory (gas : Gas) (m : Memory) (targetContract : Address)
    (offset length : Uint256) : Except Halt Creation := do
  let start ← mload gas m 64
  let m ← storeProxyCode gas m start targetContract
  let m ← copyWords gas (metadataPtr start) offset length gas.rounds m 0
  createProxy gas m start (metadataPtr start + length) length

/-- `metadata` points at the length, the bytes follow it. -/
def metaProxyFromBytes (gas : Gas) (m : Memory) (targetContract : Address)
    (metadata : Uint256) : Except Halt Creation := do
  let length ← mload gas m metadata
  metaProxyFromMemory gas m targetContract (metadata + 32) length

end NeonTests.MetaProxy
