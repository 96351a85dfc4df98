import NeonTests.Pyth.BytesLib
import Mathlib.Data.Vector.Basic

/-!
# Pyth price accounts — definitions

`parseSolanaPriceAccountData` and the four little-endian readers of
`contracts/pyth/PythOracle.sol`, with the structures of `PythStructs.sol`. The
account they read is described by `PriceAccount`, in the layout the function's
skip comments name; `PriceAccount.serialize` lays it out byte by byte.
-/

namespace NeonTests.Pyth

open Endian Solidity BytesLib

/-- Exactly `n` bytes. -/
abbrev BytesN (n : Nat) := List.Vector UInt8 n

-- ---------------------------------------------------------------------------
-- PythStructs.sol
-- ---------------------------------------------------------------------------

/-- `PriceStatus` -/
inductive PriceStatus
  | unknown
  | trading
  | halted
  | auction
  deriving DecidableEq, Repr

def PriceStatus.toNat : PriceStatus → Nat
  | .unknown => 0
  | .trading => 1
  | .halted => 2
  | .auction => 3

/-- `PriceStatus(code)`: the conversion reverts on a code without a member. -/
def PriceStatus.ofUint (code : Uint32) : Except Revert PriceStatus :=
  match code.toNat with
  | 0 => .ok .unknown
  | 1 => .ok .trading
  | 2 => .ok .halted
  | 3 => .ok .auction
  | _ => .error .enumConversion

/-- `PriceFeed` -/
structure PriceFeed where
  id : BytesN 32
  productId : BytesN 32
  price : Sint64
  conf : Uint64
  expo : Sint32
  status : PriceStatus
  maxNumPublishers : Uint32
  numPublishers : Uint32
  emaPrice : Sint64
  emaConf : Uint64
  publishTime : Uint64
  prevPrice : Sint64
  prevConf : Uint64
  prevPublishTime : Uint64
  deriving DecidableEq

-- ---------------------------------------------------------------------------
-- PythOracle.sol
-- ---------------------------------------------------------------------------

/-- The two masked stages that `readLittleEndianSigned64` and
`readLittleEndianUnsigned64` share. -/
def swapWithin32 (input : Uint64) : Uint64 :=
  let val := ((input <<< 8) &&& 0xFF00FF00FF00FF00#64) |||
    ((input >>> 8) &&& 0x00FF00FF00FF00FF#64)
  ((val <<< 16) &&& 0xFFFF0000FFFF0000#64) ||| ((val >>> 16) &&& 0x0000FFFF0000FFFF#64)

/-- `readLittleEndianSigned64` -/
def readLittleEndianSigned64 (input : Uint64) : Sint64 :=
  let val := swapWithin32 input
  SInt.ofBits ((val <<< 32) ||| ((val >>> 32) &&& 0xFFFFFFFF#64))

/-- `readLittleEndianUnsigned64` -/
def readLittleEndianUnsigned64 (input : Uint64) : Uint64 :=
  let val := swapWithin32 input
  (val <<< 32) ||| (val >>> 32)

/-- The masked stage that `readLittleEndianSigned32` and
`readLittleEndianUnsigned32` share. -/
def swapWithin16 (input : Uint32) : Uint32 :=
  ((input &&& 0xFF00FF00#32) >>> 8) ||| ((input &&& 0x00FF00FF#32) <<< 8)

/-- `readLittleEndianSigned32` -/
def readLittleEndianSigned32 (input : Uint32) : Sint32 :=
  let val := swapWithin16 input
  SInt.ofBits ((val <<< 16) ||| ((val >>> 16) &&& 0xFFFF#32))

/-- `readLittleEndianUnsigned32` -/
def readLittleEndianUnsigned32 (input : Uint32) : Uint32 :=
  let val := swapWithin16 input
  (val <<< 16) ||| (val >>> 16)

/-- `parseSolanaPriceAccountData` -/
def parseSolanaPriceAccountData (id : BytesN 32) (data : Bytes) : Except Revert PriceFeed := do
  -- magic (4) + ver (4) + atype (4) + size (4) + ptype (4)
  let offset := 0 + 20
  let expo ← toUint32 data offset
  let offset := offset + 4
  let maxNumPublishers ← toUint32 data offset
  let offset := offset + 4
  let numPublishers ← toUint32 data offset
  let offset := offset + 4
  -- last_slot (8) + valid_slot (8)
  let offset := offset + 16
  let emaPrice ← toUint64 data offset
  let offset := offset + 8
  -- twap.numer_ (8) + twap.denom_ (8)
  let offset := offset + 16
  let emaConf ← toUint64 data offset
  let offset := offset + 8
  -- twac.numer_ (8) + twac.denom_ (8)
  let offset := offset + 16
  let publishTime ← toUint64 data offset
  let offset := offset + 8
  -- min_pub (1) + drv2_ (1) + drv3_ (2) + drv4_ (4)
  let offset := offset + 8
  -- the slice is taken, but `bytes32(id)` is what is stored
  let _ ← slice data offset 32
  let productId := id
  let offset := offset + 32
  -- next_ (32) + prev_slot_ (8)
  let offset := offset + 40
  let prevPrice ← toUint64 data offset
  let offset := offset + 8
  let prevConf ← toUint64 data offset
  let offset := offset + 8
  let prevPublishTime ← toUint64 data offset
  let offset := offset + 8
  let price ← toUint64 data offset
  let offset := offset + 8
  let conf ← toUint64 data offset
  let offset := offset + 8
  let status ← toUint32 data offset
  let status ← PriceStatus.ofUint (readLittleEndianUnsigned32 status)
  return {
    id := id
    productId := productId
    price := readLittleEndianSigned64 price
    conf := readLittleEndianUnsigned64 conf
    expo := readLittleEndianSigned32 expo
    status := status
    maxNumPublishers := readLittleEndianUnsigned32 maxNumPublishers
    numPublishers := readLittleEndianUnsigned32 numPublishers
    emaPrice := readLittleEndianSigned64 emaPrice
    emaConf := readLittleEndianUnsigned64 emaConf
    publishTime := readLittleEndianUnsigned64 publishTime
    prevPrice := readLittleEndianSigned64 prevPrice
    prevConf := readLittleEndianUnsigned64 prevConf
    prevPublishTime := readLittleEndianUnsigned64 prevPublishTime }

-- ---------------------------------------------------------------------------
-- The account
-- ---------------------------------------------------------------------------

/-- A price account: the fields the parser reads, and the bytes it skips. -/
structure PriceAccount where
  /-- magic, ver, atype, size, ptype -/
  header : BytesN 20
  expo : Sint32
  maxNumPublishers : Uint32
  numPublishers : Uint32
  /-- last_slot, valid_slot -/
  slots : BytesN 16
  emaPrice : Sint64
  /-- twap.numer_, twap.denom_ -/
  twap : BytesN 16
  emaConf : Uint64
  /-- twac.numer_, twac.denom_ -/
  twac : BytesN 16
  publishTime : Uint64
  /-- min_pub, drv2_, drv3_, drv4_ -/
  derived : BytesN 8
  productId : BytesN 32
  /-- next_, prev_slot_ -/
  next : BytesN 40
  prevPrice : Sint64
  prevConf : Uint64
  prevPublishTime : Uint64
  price : Sint64
  conf : Uint64
  status : PriceStatus
  /-- whatever follows the status -/
  rest : Bytes

/-- The bytes of a little-endian word. -/
def wordBytes {w : Nat} (n : Nat) (x : BitVec w) : Bytes := leBytes n x.toNat

/-- The account's data, field by field. -/
def PriceAccount.serialize (a : PriceAccount) : Bytes :=
  a.header.toList ++ (wordBytes 4 a.expo.toBits ++ (wordBytes 4 a.maxNumPublishers ++
    (wordBytes 4 a.numPublishers ++ (a.slots.toList ++ (wordBytes 8 a.emaPrice.toBits ++
    (a.twap.toList ++ (wordBytes 8 a.emaConf ++ (a.twac.toList ++ (wordBytes 8 a.publishTime ++
    (a.derived.toList ++ (a.productId.toList ++ (a.next.toList ++
    (wordBytes 8 a.prevPrice.toBits ++ (wordBytes 8 a.prevConf ++
    (wordBytes 8 a.prevPublishTime ++ (wordBytes 8 a.price.toBits ++ (wordBytes 8 a.conf ++
    (leBytes 4 a.status.toNat ++ a.rest))))))))))))))))))

/-- The feed an account with this id describes. -/
def PriceAccount.feed (a : PriceAccount) (id : BytesN 32) : PriceFeed where
  id := id
  productId := a.productId
  price := a.price
  conf := a.conf
  expo := a.expo
  status := a.status
  maxNumPublishers := a.maxNumPublishers
  numPublishers := a.numPublishers
  emaPrice := a.emaPrice
  emaConf := a.emaConf
  publishTime := a.publishTime
  prevPrice := a.prevPrice
  prevConf := a.prevConf
  prevPublishTime := a.prevPublishTime

end NeonTests.Pyth
