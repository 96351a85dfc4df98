import NeonTests.Lib.Endian

/-!
# Recursive length prefix — the format

Byte strings and lists of items, nested, each with its length in front in as few bytes
as it takes. `Item.encode` is the format's definition; `Canonical` byte strings are the
encodings it gives to the items that have one.

`length_header_mono` and `length_encode_scalar_mono` say that a longer payload never has
a shorter prefix, and a larger number never a shorter encoding.
-/

namespace RlpItem

open Endian

inductive Item
  | string (bytes : Bytes)
  | list (items : List Item)

/-- The prefix of a payload of `l` bytes, `base` being the code of an empty one. -/
def header (base l : Nat) : Bytes :=
  if l ≤ 55 then [UInt8.ofNat (base + l)]
  else UInt8.ofNat (base + 55 + byteLength l) :: minBytes l

/-- A byte below `0x80` stands for itself. -/
def encodeString (bytes : Bytes) : Bytes :=
  if bytes.length = 1 ∧ beNat bytes < 0x80 then bytes else header 0x80 bytes.length ++ bytes

mutual

def Item.encode : Item → Bytes
  | .string bytes => encodeString bytes
  | .list items => header 0xC0 (encodeAll items).length ++ encodeAll items

/-- The encodings of the items, one behind the other. -/
def encodeAll : List Item → Bytes
  | [] => []
  | item :: items => item.encode ++ encodeAll items

end

mutual

/-- The format has no prefix for a payload of `2 ^ 64` bytes or more. -/
def Item.Encodable : Item → Prop
  | .string bytes => bytes.length < 2 ^ 64
  | .list items => AllEncodable items ∧ (encodeAll items).length < 2 ^ 64

def AllEncodable : List Item → Prop
  | [] => True
  | item :: items => item.Encodable ∧ AllEncodable items

end

/-- The encoding of an item. -/
def Canonical (s : Bytes) : Prop := ∃ item : Item, item.Encodable ∧ item.encode = s

/-- A number is the string of its minimal encoding; zero is the empty string. -/
def Item.scalar (n : Nat) : Item := .string (minBytes n)

-- ---------------------------------------------------------------------------
-- Strings
-- ---------------------------------------------------------------------------

theorem encodeString_byte {b : UInt8} (h : b.toNat < 0x80) : encodeString [b] = [b] := by
  have hnat : beNat [b] = b.toNat := by simp [beNat, leNat]
  rw [encodeString, if_pos ⟨rfl, by rwa [hnat]⟩]

theorem encodeString_of_not {bytes : Bytes} (h : ¬ (bytes.length = 1 ∧ beNat bytes < 0x80)) :
    encodeString bytes = header 0x80 bytes.length ++ bytes := if_neg h

/-- What stands for itself is one byte. -/
theorem exists_byte {bytes : Bytes} (h : bytes.length = 1 ∧ beNat bytes < 0x80) :
    ∃ b : UInt8, bytes = [b] ∧ b.toNat < 0x80 := by
  obtain ⟨b, rfl⟩ := List.length_eq_one_iff.mp h.1
  have hnat : beNat [b] = b.toNat := by simp [beNat, leNat]
  exact ⟨b, rfl, by rw [← hnat]; exact h.2⟩

theorem header_short {base l : Nat} (h : l ≤ 55) : header base l = [UInt8.ofNat (base + l)] :=
  if_pos h

theorem header_long {base l : Nat} (h : 55 < l) :
    header base l = UInt8.ofNat (base + 55 + byteLength l) :: minBytes l :=
  if_neg (by omega)

theorem header_ne_nil (base l : Nat) : header base l ≠ [] := by
  unfold header
  split <;> exact List.cons_ne_nil _ _

theorem encode_ne_nil (item : Item) : item.encode ≠ [] := by
  cases item with
  | string bytes =>
    rw [Item.encode, encodeString]
    split
    · next h =>
      intro hnil
      rw [hnil] at h
      cases h.1
    · exact List.append_ne_nil_of_left_ne_nil (header_ne_nil _ _) _
  | list items =>
    rw [Item.encode]
    exact List.append_ne_nil_of_left_ne_nil (header_ne_nil _ _) _

-- ---------------------------------------------------------------------------
-- Lengths
-- ---------------------------------------------------------------------------

theorem length_header (base l : Nat) :
    (header base l).length = if l ≤ 55 then 1 else byteLength l + 1 := by
  unfold header
  split
  · rfl
  · rw [List.length_cons, length_minBytes]

theorem length_header_mono (base : Nat) {l m : Nat} (h : l ≤ m) :
    (header base l).length ≤ (header base m).length := by
  rw [length_header, length_header]
  have := byteLength_mono h
  split <;> split <;> omega

theorem length_encode_list (items : List Item) : (Item.list items).encode.length =
    (header 0xC0 (encodeAll items).length).length + (encodeAll items).length := by
  rw [Item.encode, List.length_append]

theorem length_encode_pos (item : Item) : 1 ≤ item.encode.length :=
  List.length_pos_iff.mpr (encode_ne_nil item)

theorem encodeAll_append (xs ys : List Item) :
    encodeAll (xs ++ ys) = encodeAll xs ++ encodeAll ys := by
  induction xs with
  | nil => rfl
  | cons x xs ih => rw [List.cons_append, encodeAll, ih, encodeAll, List.append_assoc]

-- ---------------------------------------------------------------------------
-- Scalars
-- ---------------------------------------------------------------------------

theorem encode_scalar_byte {n : Nat} (hpos : 0 < n) (h : n < 0x80) :
    (Item.scalar n).encode = [UInt8.ofNat n] := by
  have hbyte : (UInt8.ofNat n).toNat = n := by
    rw [UInt8.toNat_ofNat']
    omega
  rw [Item.scalar, Item.encode, minBytes_byte hpos (by omega)]
  exact encodeString_byte (by rwa [hbyte])

theorem encode_scalar_big {n : Nat} (h : 0x80 ≤ n) :
    (Item.scalar n).encode = header 0x80 (byteLength n) ++ minBytes n := by
  have hbig : ¬ ((minBytes n).length = 1 ∧ beNat (minBytes n) < 0x80) := by
    rw [beNat_minBytes]
    omega
  rw [Item.scalar, Item.encode, encodeString_of_not hbig, length_minBytes]

/-- A larger number never has a shorter encoding. -/
theorem length_encode_scalar_mono {m n : Nat} (h : m ≤ n) :
    (Item.scalar m).encode.length ≤ (Item.scalar n).encode.length := by
  rcases Nat.lt_or_ge m 0x80 with hsmall | hbig
  · have hone : (Item.scalar m).encode.length = 1 := by
      rcases Nat.eq_zero_or_pos m with rfl | hpos
      · rfl
      · rw [encode_scalar_byte hpos hsmall]
        rfl
    rw [hone]
    exact length_encode_pos _
  · rw [encode_scalar_big hbig, encode_scalar_big (le_trans hbig h), List.length_append,
      List.length_append, length_minBytes, length_minBytes]
    exact Nat.add_le_add (length_header_mono _ (byteLength_mono h)) (byteLength_mono h)

end RlpItem
