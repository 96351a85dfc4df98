import NeonTests.Lib.Solidity
import NeonTests.Lib.Endian

/-!
# BytesLib — reads from a byte array

The readers of `contracts/pyth/solidity-bytes-utils/contracts/BytesLib.sol` the
account parsers use: bounds-checked big-endian integers, and a copied slice.
The assembly behind them loads one memory word, whose low bytes are the ones
asked for.

`toUint_of_drop` and `drop_next` are the two rules for walking over an array
that is known to be a concatenation of fields.
-/

namespace NeonTests.BytesLib

open Endian Fallible Solidity

/-- The common body of the integer readers: `n` bytes from `start` on, as a
`w`-bit big-endian number. -/
def toUint (n w : Nat) (outOfBounds : String) (data : Bytes) (start : Nat) :
    Except Revert (BitVec w) := do
  require (start + n ≤ data.length) outOfBounds
  return BitVec.ofNat w (beNat ((data.drop start).take n))

def toUint8 : Bytes → Nat → Except Revert Uint8 := toUint 1 8 "toUint8_outOfBounds"
def toUint32 : Bytes → Nat → Except Revert Uint32 := toUint 4 32 "toUint32_outOfBounds"
def toUint64 : Bytes → Nat → Except Revert Uint64 := toUint 8 64 "toUint64_outOfBounds"
def toUint128 : Bytes → Nat → Except Revert Uint128 := toUint 16 128 "toUint128_outOfBounds"

/-- `slice`; lengths are far from the word size, so its first check passes. -/
def slice (data : Bytes) (start length : Nat) : Except Revert Bytes := do
  require (length + 31 < 2 ^ 256) "slice_overflow"
  require (start + length ≤ data.length) "slice_outOfBounds"
  return (data.drop start).take length

variable {data chunk rest : Bytes} {start : Nat}

/-- Where the next field starts. -/
theorem drop_next {next n : Nat} (h : data.drop start = chunk ++ rest) (hn : chunk.length = n)
    (hnext : start + n = next) : data.drop next = rest := by
  rw [← hnext, ← hn, ← List.drop_drop, h, List.drop_left]

/-- A field in front is within bounds. -/
theorem length_of_drop (h : data.drop start = chunk ++ rest) (hpos : 0 < chunk.length) :
    start + chunk.length ≤ data.length := by
  have hlen := congrArg List.length h
  rw [List.length_drop, List.length_append] at hlen
  omega

/-- Reading a field that is in front. -/
theorem toUint_of_drop {n w : Nat} {text : String} (h : data.drop start = chunk ++ rest)
    (hn : chunk.length = n) (hpos : 0 < n) :
    toUint n w text data start = .ok (BitVec.ofNat w (beNat chunk)) := by
  subst hn
  have hle := length_of_drop h hpos
  rw [toUint, require, guard_of hle, ok_bind, h, List.take_left]
  rfl

theorem slice_of_drop {length : Nat} (h : data.drop start = chunk ++ rest)
    (hn : chunk.length = length) (hpos : 0 < length) (hlt : length + 31 < 2 ^ 256) :
    slice data start length = .ok chunk := by
  subst hn
  have hle := length_of_drop h hpos
  rw [slice, require, guard_of hlt, ok_bind, require, guard_of hle, ok_bind, h, List.take_left]
  rfl

end NeonTests.BytesLib
