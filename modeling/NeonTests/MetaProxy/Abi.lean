import NeonTests.MetaProxy.Metadata
import Mathlib.Data.BitVec

/-!
# MetaProxy — calldata and answers

What `abi.encode` and `abi.decode` do with the types of `contracts/EIPs/MetaProxy.sol`. A value
of variable length stands behind the words of the others, which hold its place; decoding takes it
from wherever that says.

* `decode_encode` — the metadata that `createFromBytes` makes is decoded as its arguments.
-/

namespace NeonTests.MetaProxy

open Endian Fallible Solidity EvmMemory

-- ---------------------------------------------------------------------------
-- Words
-- ---------------------------------------------------------------------------

def wordAt (bs : Bytes) (p : Nat) : Uint256 := wordOf ((bs.drop p).take 32)

def words : Nat → Bytes → List Uint256
  | 0, _ => []
  | n + 1, bs => wordAt bs 0 :: words n (bs.drop 32)

def addressWord (a : Address) : Bytes := wordBytes (a.setWidth 256)

/-- An `address` is a word without anything in front of its 160 bits. -/
def addressAt (data : Bytes) (slot : Nat) : Option Address :=
  if (wordAt data slot).toNat < 2 ^ 160 then some ((wordAt data slot).setWidth 160) else none

/-- Where the items stand that a slot points to, and how many there are; an item is `width`
bytes. -/
def itemsAt (width : Nat) (data : Bytes) (slot : Nat) : Option (Nat × Nat) :=
  let offset := (wordAt data slot).toNat
  let length := (wordAt data offset).toNat
  if ¬ offset < 2 ^ 64 then none
  else if ¬ offset + 31 < data.length then none
  else if ¬ length < 2 ^ 64 then none
  else if ¬ offset + 32 + width * length ≤ data.length then none
  else some (offset + 32, length)

def wordsAt (data : Bytes) (slot : Nat) : Option (List Uint256) :=
  (itemsAt 32 data slot).map fun items => words items.2 (data.drop items.1)

def bytesAt (data : Bytes) (slot : Nat) : Option Bytes :=
  (itemsAt 1 data slot).map fun items => (data.drop items.1).take items.2

/-- `uint256[]` -/
def encodeWords (c : List Uint256) : Bytes := beBytes 32 c.length ++ c.flatMap wordBytes

/-- `bytes` and `string`, filled up to whole words. -/
def encodeBytes (bs : Bytes) : Bytes :=
  beBytes 32 bs.length ++ bs ++ List.replicate ((32 - bs.length % 32) % 32) 0

-- ---------------------------------------------------------------------------
-- The metadata
-- ---------------------------------------------------------------------------

/-- `(address a, uint256 b, uint256[] c)` -/
structure Metadata where
  a : Address
  b : Uint256
  c : List Uint256
  deriving DecidableEq

/-- `abi.encode(a, b, c)` -/
def encode (md : Metadata) : Bytes :=
  addressWord md.a ++ wordBytes md.b ++ wordBytes 96 ++ encodeWords md.c

/-- `abi.decode(data, (address, uint256, uint256[]))` -/
def decode (data : Bytes) : Option Metadata :=
  if data.length < 96 then none
  else do
    let a ← addressAt data 0
    let c ← wordsAt data 64
    return ⟨a, wordAt data 32, c⟩

/-- `(uint256[] c, uint256 b, address a)`, the arguments of `createFromBytes`. -/
def encodeReversed (md : Metadata) : Bytes :=
  wordBytes 96 ++ wordBytes md.b ++ addressWord md.a ++ encodeWords md.c

def decodeReversed (data : Bytes) : Option Metadata :=
  if data.length < 96 then none
  else do
    let c ← wordsAt data 0
    let a ← addressAt data 64
    return ⟨a, wordAt data 32, c⟩

-- ---------------------------------------------------------------------------
-- Other arguments and answers
-- ---------------------------------------------------------------------------

def decodeUint (data : Bytes) : Option Uint256 :=
  if data.length < 32 then none else some (wordAt data 0)

def decodeAddress (data : Bytes) : Option Address :=
  if data.length < 32 then none else addressAt data 0

/-- `(uint256, uint256[])` -/
def encodeMulti (b : Uint256) (c : List Uint256) : Bytes :=
  wordBytes b ++ wordBytes 64 ++ encodeWords c

def decodeMulti (data : Bytes) : Option (Uint256 × List Uint256) :=
  if data.length < 64 then none else (wordsAt data 32).map fun c => (wordAt data 0, c)

/-- `(bytes data, uint256 xyz)` -/
def encodeBytesUint (bs : Bytes) (xyz : Uint256) : Bytes :=
  wordBytes 64 ++ wordBytes xyz ++ encodeBytes bs

def decodeBytesUint (data : Bytes) : Option (Bytes × Uint256) :=
  if data.length < 64 then none else (bytesAt data 0).map fun bs => (bs, wordAt data 32)

/-- `(string data)` -/
def encodeString (bs : Bytes) : Bytes := wordBytes 32 ++ encodeBytes bs

def decodeString (data : Bytes) : Option Bytes :=
  if data.length < 32 then none else bytesAt data 0

-- ---------------------------------------------------------------------------
-- Decoding what was encoded
-- ---------------------------------------------------------------------------

theorem wordAt_append (front : Bytes) (w : Uint256) {rest : Bytes} {p : Nat}
    (hp : p = front.length) : wordAt (front ++ (wordBytes w ++ rest)) p = w := by
  rw [wordAt, hp, List.drop_left, ← length_wordBytes w, List.take_left, wordOf_wordBytes]

theorem words_flatMap (c : List Uint256) : words c.length (c.flatMap wordBytes) = c := by
  induction c with
  | nil => rfl
  | cons w c ih =>
    have hfirst : wordAt (wordBytes w ++ c.flatMap wordBytes) 0 = w :=
      wordAt_append [] w rfl
    have hrest : (wordBytes w ++ c.flatMap wordBytes).drop 32 = c.flatMap wordBytes := by
      rw [← length_wordBytes w, List.drop_left]
    rw [List.length_cons, List.flatMap_cons, words, hfirst, hrest, ih]

theorem length_flatMap_wordBytes (c : List Uint256) :
    (c.flatMap wordBytes).length = 32 * c.length := by
  induction c with
  | nil => rfl
  | cons w c ih =>
    rw [List.flatMap_cons, List.length_append, length_wordBytes, ih, List.length_cons]
    omega

theorem length_encodeWords (c : List Uint256) :
    (encodeWords c).length = 32 + 32 * c.length := by
  rw [encodeWords, List.length_append, length_beBytes, length_flatMap_wordBytes]

theorem length_encode (md : Metadata) : (encode md).length = 128 + 32 * md.c.length := by
  simp only [encode, addressWord, List.length_append, length_wordBytes, length_encodeWords]
  omega

/-- An array where its slot says. -/
theorem wordsAt_append {data front : Bytes} {slot : Nat} {c : List Uint256}
    (hdata : data = front ++ encodeWords c) (hslot : (wordAt data slot).toNat = front.length)
    (hfront : front.length < 2 ^ 64) (hc : c.length < 2 ^ 64) : wordsAt data slot = some c := by
  have hlen : data.length = front.length + (32 + 32 * c.length) := by
    rw [hdata, List.length_append, length_encodeWords]
  have hcount : (wordAt data front.length).toNat = c.length := by
    have hbytes : beBytes 32 c.length = wordBytes (BitVec.ofNat 256 c.length) := by
      rw [wordBytes, BitVec.toNat_ofNat, Nat.mod_eq_of_lt (by omega)]
    rw [hdata, encodeWords, hbytes, wordAt_append front _ rfl, BitVec.toNat_ofNat,
      Nat.mod_eq_of_lt (by omega)]
  have hitems : itemsAt 32 data slot = some (front.length + 32, c.length) := by
    unfold itemsAt
    simp only [hslot, hcount]
    rw [if_neg (by omega), if_neg (by omega), if_neg (by omega), if_neg (by omega)]
  have hdrop : data.drop (front.length + 32) = c.flatMap wordBytes := by
    rw [hdata, encodeWords, ← List.append_assoc]
    exact List.drop_left' (by rw [List.length_append, length_beBytes])
  rw [wordsAt, hitems, Option.map_some, hdrop, words_flatMap]

theorem addressAt_append (front rest : Bytes) {slot : Nat} (a : Address)
    (hslot : slot = front.length) :
    addressAt (front ++ (addressWord a ++ rest)) slot = some a := by
  have hword : wordAt (front ++ (addressWord a ++ rest)) slot = a.setWidth 256 :=
    wordAt_append front _ hslot
  have hnat : (a.setWidth 256).toNat = a.toNat := toNat_setWidth_of_le (by omega) a
  have hnarrow : (a.setWidth 256).setWidth 160 = a := by
    apply BitVec.eq_of_toNat_eq
    rw [BitVec.toNat_setWidth, hnat, Nat.mod_eq_of_lt a.isLt]
  have hlt := a.isLt
  rw [addressAt, hword, hnat, if_pos hlt, hnarrow]

theorem decode_encode (md : Metadata) (h : md.c.length < 2 ^ 64) :
    decode (encode md) = some md := by
  have hlen := length_encode md
  have ha : addressAt (encode md) 0 = some md.a := by
    rw [encode, List.append_assoc, List.append_assoc]
    exact addressAt_append [] _ md.a rfl
  have hb : wordAt (encode md) 32 = md.b := by
    rw [encode, List.append_assoc, List.append_assoc]
    exact wordAt_append (addressWord md.a) _ (length_wordBytes _).symm
  have hplace : wordAt (encode md) 64 = 96 := by
    rw [encode, List.append_assoc]
    exact wordAt_append _ _ (by simp [addressWord])
  have hc : wordsAt (encode md) 64 = some md.c := by
    refine wordsAt_append rfl ?_ ?_ h
    · rw [hplace]
      simp [addressWord]
    · simp [addressWord]
  rw [decode, if_neg (by omega), ha, hc, hb]
  rfl

end NeonTests.MetaProxy
