import NeonTests.Lib.RlpItem
import NeonTests.Rlp.RoundTrip

/-!
# RLP codec — encoding undoes decoding

What `pack` makes of the output of `unpack`, for every canonically encoded item.

* `value` — the Python value an item is decoded to: its one-byte strings become
  integers, the empty string `None`, the empty list a tuple;
* `pack_value` — `pack` encodes that value as the format encodes the item;
* `unpack_encode` — and `unpack` gets it back, whatever follows.
-/

namespace NeonTests.Rlp

open Endian Fallible Python RlpItem

-- ---------------------------------------------------------------------------
-- The values of items
-- ---------------------------------------------------------------------------

/-- A string, decoded. -/
def stringValue (bytes : Bytes) : PyVal :=
  if bytes.length = 1 ∧ beNat bytes < 0x80 then .int (beNat bytes) else normBytes bytes

mutual

def value : Item → PyVal
  | .string bytes => stringValue bytes
  | .list items => if items = [] then .tuple [] else .list (values items)

def values : List Item → List PyVal
  | [] => []
  | item :: items => value item :: values items

end

theorem stringValue_byte {b : UInt8} (h : b.toNat < 0x80) : stringValue [b] = .int b.toNat := by
  have hnat : beNat [b] = b.toNat := by simp [beNat, leNat]
  rw [stringValue, if_pos ⟨rfl, by rwa [hnat]⟩, hnat]

theorem stringValue_bytes {bytes : Bytes} (hne : bytes ≠ [])
    (h : ¬ (bytes.length = 1 ∧ beNat bytes < 0x80)) : stringValue bytes = .bytes bytes := by
  rw [stringValue, if_neg h, normBytes, if_neg hne]

/-- The three kinds of strings a value tells apart. -/
theorem string_cases {P : Bytes → Prop} (hnil : P [])
    (hbyte : ∀ b : UInt8, b.toNat < 0x80 → P [b])
    (hbytes : ∀ bytes, bytes ≠ [] → ¬ (bytes.length = 1 ∧ beNat bytes < 0x80) → P bytes)
    (bytes : Bytes) : P bytes := by
  by_cases hne : bytes = []
  · subst hne
    exact hnil
  · by_cases h : bytes.length = 1 ∧ beNat bytes < 0x80
    · obtain ⟨b, rfl, hb⟩ := exists_byte h
      exact hbyte b hb
    · exact hbytes bytes hne h

-- ---------------------------------------------------------------------------
-- Values are packed as their items
-- ---------------------------------------------------------------------------

theorem packBytes_eq {bytes : Bytes} (h : bytes.length < 2 ^ 64) :
    packBytes bytes = .ok (header 0x80 bytes.length ++ bytes) := by
  rcases Nat.lt_or_ge 55 bytes.length with hlong | hshort
  · rw [packBytes_long hlong h, header_long hlong]
    rfl
  · rw [packBytes_short hshort, header_short hshort, Nat.add_comm]
    rfl

theorem packPayload_eq {body : Bytes} (h : body.length < 2 ^ 64) :
    packPayload body = .ok (header 0xC0 body.length ++ body) := by
  rcases Nat.lt_or_ge 55 body.length with hlong | hshort
  · rw [packPayload_long hlong h, header_long hlong, Nat.add_comm]
    rfl
  · rw [packPayload_short hshort, header_short hshort, Nat.add_comm]
    rfl

theorem pack_stringValue (bytes : Bytes) (h : bytes.length < 2 ^ 64) :
    pack (stringValue bytes) = .ok (encodeString bytes) := by
  refine string_cases (P := fun bytes => bytes.length < 2 ^ 64 →
    pack (stringValue bytes) = .ok (encodeString bytes)) ?_ ?_ ?_ bytes h
  · intro _
    rfl
  · intro b hb _
    rw [stringValue_byte hb, encodeString_byte hb, pack, packInt_small hb, UInt8.ofNat_toNat]
  · intro bytes hne hmany h
    rw [stringValue_bytes hne hmany, encodeString_of_not hmany, pack, packBytes_eq h]

/-- The list branch of `pack`. -/
theorem pack_sequence {vs : List PyVal} {body : Bytes} (hne : vs ≠ [])
    (hbody : packItems vs = .ok body) (h : body.length < 2 ^ 64) :
    (if vs.length = 0 then toBytesBig 0xC0 1 else packItems vs >>= packPayload) =
      .ok (header 0xC0 body.length ++ body) := by
  have hlength : vs.length ≠ 0 := fun hzero => hne (List.length_eq_zero_iff.mp hzero)
  rw [if_neg hlength, hbody, ok_bind, packPayload_eq h]

theorem values_ne_nil {items : List Item} (h : items ≠ []) : values items ≠ [] := by
  cases items with
  | nil => exact absurd rfl h
  | cons item items => exact List.cons_ne_nil _ _

mutual

theorem pack_value : ∀ item : Item, item.Encodable → pack (value item) = .ok item.encode
  | .string bytes, h => by
    rw [Item.Encodable] at h
    rw [value, Item.encode]
    exact pack_stringValue bytes h
  | .list items, h => by
    rw [Item.Encodable] at h
    rw [value, Item.encode]
    by_cases hitems : items = []
    · subst hitems
      rfl
    · rw [if_neg hitems, pack]
      exact pack_sequence (values_ne_nil hitems) (packItems_values items h.1) h.2

theorem packItems_values : ∀ items : List Item, AllEncodable items →
    packItems (values items) = .ok (encodeAll items)
  | [], _ => rfl
  | item :: items, h => by
    rw [AllEncodable] at h
    rw [values, packItems, pack_value item h.1, ok_bind, packItems_values items h.2, ok_bind,
      encodeAll]
    rfl

end

-- ---------------------------------------------------------------------------
-- Values survive the codec
-- ---------------------------------------------------------------------------

theorem packable_stringValue (bytes : Bytes) (h : bytes.length < 2 ^ 64) :
    Packable (stringValue bytes) := by
  refine string_cases (P := fun bytes => bytes.length < 2 ^ 64 →
    Packable (stringValue bytes)) ?_ ?_ ?_ bytes h
  · intro _
    trivial
  · intro b hb _
    rw [stringValue_byte hb, Packable]
    omega
  · intro bytes hne hmany h
    rw [stringValue_bytes hne hmany, Packable]
    exact h

theorem norm_stringValue (bytes : Bytes) : norm (stringValue bytes) = stringValue bytes := by
  refine string_cases (P := fun bytes => norm (stringValue bytes) = stringValue bytes)
    ?_ ?_ ?_ bytes
  · rfl
  · intro b hb
    rw [stringValue_byte hb, norm, if_pos (by omega)]
  · intro bytes hne hmany
    rw [stringValue_bytes hne hmany, norm, normBytes, if_neg hne]

mutual

theorem packable_value : ∀ item : Item, item.Encodable → Packable (value item)
  | .string bytes, h => by
    rw [Item.Encodable] at h
    rw [value]
    exact packable_stringValue bytes h
  | .list items, h => by
    rw [Item.Encodable] at h
    rw [value]
    by_cases hitems : items = []
    · subst hitems
      refine ⟨trivial, ?_⟩
      rintro _ ⟨⟩
      decide
    · rw [if_neg hitems, Packable]
      refine ⟨packableItems_values items h.1, ?_⟩
      intro res hres
      rw [packItems_values items h.1, Except.ok.injEq] at hres
      rw [← hres]
      exact h.2

theorem packableItems_values : ∀ items : List Item, AllEncodable items →
    PackableItems (values items)
  | [], _ => trivial
  | item :: items, h => by
    rw [AllEncodable] at h
    rw [values, PackableItems]
    exact ⟨packable_value item h.1, packableItems_values items h.2⟩

end

mutual

theorem norm_value : ∀ item : Item, norm (value item) = value item
  | .string bytes => by
    rw [value]
    exact norm_stringValue bytes
  | .list items => by
    rw [value]
    by_cases hitems : items = []
    · subst hitems
      rfl
    · rw [if_neg hitems, norm, if_neg (values_ne_nil hitems), normItems_values items]

theorem normItems_values : ∀ items : List Item, normItems (values items) = values items
  | [] => rfl
  | item :: items => by
    rw [values, normItems, norm_value item, normItems_values items]

end

-- ---------------------------------------------------------------------------
-- Canonical input
-- ---------------------------------------------------------------------------

/-- A canonical encoding is decoded to its item's value, whatever follows. -/
theorem unpack_encode {item : Item} (h : item.Encodable) (rest : Bytes) :
    unpack (item.encode ++ rest) = .ok (value item, rest) := by
  obtain ⟨s, hpack, _, hdecodes⟩ := decodes_pack (value item) (packable_value item h)
  rw [pack_value item h, Except.ok.injEq] at hpack
  subst hpack
  rw [hdecodes rest, norm_value]

/-- **Re-encoding.** Canonical input is consumed whole, and what it is decoded to is
encoded as that input. -/
theorem pack_unpack (s : Bytes) (h : Canonical s) :
    ∃ v, unpack s = .ok (v, []) ∧ pack v = .ok s := by
  obtain ⟨item, hitem, rfl⟩ := h
  have hunpack := unpack_encode hitem []
  rw [List.append_nil] at hunpack
  exact ⟨value item, hunpack, pack_value item hitem⟩

/-- Every kind of item, in one list. -/
theorem pack_unpack_nested :
    ∃ v, unpack [0xCC, 0x84, 0x6e, 0x65, 0x6f, 0x6e, 0xC0, 0x80, 0x05, 0xC3, 0x82, 0x04, 0x00] =
        .ok (v, []) ∧
      pack v = .ok [0xCC, 0x84, 0x6e, 0x65, 0x6f, 0x6e, 0xC0, 0x80, 0x05, 0xC3, 0x82, 0x04, 0x00] := by
  refine pack_unpack _ ⟨.list [.string [0x6e, 0x65, 0x6f, 0x6e], .list [], .string [],
    .string [0x05], .list [.string [0x04, 0x00]]], ?_, rfl⟩
  simp only [Item.Encodable, AllEncodable]
  decide

end NeonTests.Rlp
