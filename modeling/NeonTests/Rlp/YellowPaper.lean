import NeonTests.Lib.RlpFrame
import NeonTests.Rlp.Canonical

/-!
# RLP codec — the format's own encoding

`pack` beside the format, on the Python values that stand for an item. The `int` branch
writes a number below `0x80` as its byte, zero included; the `bytes` branch puts a prefix
in front of any byte. The format does the opposite in both places.

* `item` — the item a value stands for, whichever type carries it;
* `pack_eq_encode_iff` — `pack` writes that item's encoding exactly for the values without
  a zero and without a one-byte string below `0x80`.
-/

namespace NeonTests.Rlp

open Endian Fallible Python RlpItem RlpFrame

-- ---------------------------------------------------------------------------
-- Trees
-- ---------------------------------------------------------------------------

mutual

/-- Byte strings, numbers below `2 ^ 256`, and lists of them; `None` and a text stand for
byte strings too. -/
def Tree : PyVal → Prop
  | .none => True
  | .str _ => True
  | .bytes _ => True
  | .int n => 0 ≤ n ∧ n < 2 ^ 256
  | .list xs => Trees xs
  | .tuple xs => Trees xs
  | .other _ => False

def Trees : List PyVal → Prop
  | [] => True
  | x :: xs => Tree x ∧ Trees xs

end

mutual

/-- The item a tree stands for. -/
def item : PyVal → Item
  | .none => .string []
  | .str s => .string (utf8 s)
  | .bytes b => .string b
  | .int n => .scalar n.toNat
  | .list xs => .list (items xs)
  | .tuple xs => .list (items xs)
  | .other _ => .string []

def items : List PyVal → List Item
  | [] => []
  | x :: xs => item x :: items xs

end

/-- A byte string that stands for itself in the format. -/
def SingleByte (b : Bytes) : Prop := b.length = 1 ∧ beNat b < 0x80

instance : DecidablePred SingleByte := fun _ => inferInstanceAs (Decidable (_ ∧ _))

mutual

/-- No zero and no byte string of one byte below `0x80`, at any depth. -/
def Plain : PyVal → Prop
  | .none => True
  | .str s => ¬ SingleByte (utf8 s)
  | .bytes b => ¬ SingleByte b
  | .int n => n ≠ 0
  | .list xs => PlainItems xs
  | .tuple xs => PlainItems xs
  | .other _ => True

def PlainItems : List PyVal → Prop
  | [] => True
  | x :: xs => Plain x ∧ PlainItems xs

end

-- ---------------------------------------------------------------------------
-- Whole encodings
-- ---------------------------------------------------------------------------

theorem stringItem_header {bytes : Bytes} (h : bytes.length < 2 ^ 64) :
    StringItem (header 0x80 bytes.length ++ bytes) := by
  rcases Nat.lt_or_ge 55 bytes.length with hlong | hshort
  · have hitem := StringItem.long (minBytes bytes.length) bytes
      (by rw [length_minBytes]; exact byteLength_pos (by omega))
      (by rw [length_minBytes]; exact byteLength_le_eight h) (beNat_minBytes _)
    rw [length_minBytes] at hitem
    rw [header_long hlong]
    exact hitem
  · rw [header_short hshort]
    exact .short bytes hshort

theorem listItem_header {body : Bytes} (h : body.length < 2 ^ 64) :
    ListItem body (header 0xC0 body.length ++ body) := by
  rcases Nat.lt_or_ge 55 body.length with hlong | hshort
  · have hitem := ListItem.long (minBytes body.length)
      (by rw [length_minBytes]; exact byteLength_pos (by omega))
      (by rw [length_minBytes]; exact byteLength_le_eight h) (beNat_minBytes body.length)
    rw [length_minBytes] at hitem
    rw [header_long hlong]
    exact hitem
  · rw [header_short hshort]
    exact .short hshort

theorem whole_encodeString {bytes : Bytes} (h : bytes.length < 2 ^ 64) :
    Whole (encodeString bytes) := by
  refine ((stringItem_iff _).mp ?_).1
  by_cases hsingle : SingleByte bytes
  · obtain ⟨b, rfl, hb⟩ := exists_byte hsingle
    rw [encodeString_byte hb]
    exact .byte b hb
  · rw [encodeString_of_not hsingle]
    exact stringItem_header h

theorem whole_encode {item : Item} (h : item.Encodable) : Whole item.encode := by
  cases item with
  | string bytes =>
    rw [Item.Encodable] at h
    rw [Item.encode]
    exact whole_encodeString h
  | list items =>
    rw [Item.Encodable] at h
    rw [Item.encode]
    exact ((listItem_iff _ _).mp (listItem_header h.2)).1

-- ---------------------------------------------------------------------------
-- Leaves
-- ---------------------------------------------------------------------------

/-- The two branches of `pack` for byte strings. -/
theorem packBytes_eq_encode_iff {b : Bytes} (h : b.length < 2 ^ 64) :
    packBytes b = .ok (encodeString b) ↔ ¬ SingleByte b := by
  rw [packBytes_eq h, Except.ok.injEq]
  constructor
  · intro heq hsingle
    obtain ⟨c, rfl, hc⟩ := exists_byte hsingle
    rw [encodeString_byte hc] at heq
    have := congrArg List.length heq
    simp [header] at this
  · intro hsingle
    exact (encodeString_of_not hsingle).symm

theorem packInt_eq_encode {n : Nat} (hpos : 0 < n) (h : n < 2 ^ 256) :
    packInt n = .ok (Item.scalar n).encode := by
  rcases Nat.lt_or_ge n 0x80 with hsmall | hbig
  · rw [packInt_small hsmall, encode_scalar_byte hpos hsmall]
  · have hle : byteLength n ≤ 32 := byteLength_le_iff.mpr (by simpa using h)
    rw [packInt_big hbig (by omega), encode_scalar_big hbig, header_short (by omega),
      Nat.add_comm]
    rfl

theorem packInt_eq_encode_iff {n : Int} (h0 : 0 ≤ n) (h : n < 2 ^ 256) :
    packInt n = .ok (Item.scalar n.toNat).encode ↔ n ≠ 0 := by
  obtain ⟨n, rfl⟩ := Int.eq_ofNat_of_zero_le h0
  rw [Int.toNat_natCast]
  rcases Nat.eq_zero_or_pos n with rfl | hpos
  · decide
  · simp only [packInt_eq_encode hpos (by exact_mod_cast h), true_iff]
    omega

-- ---------------------------------------------------------------------------
-- Lists
-- ---------------------------------------------------------------------------

/-- A payload that `pack` finds a prefix for. -/
theorem length_of_packPayload {body s : Bytes} (h : packPayload body = .ok s) :
    body.length < 2 ^ 64 := by
  rcases Nat.lt_or_ge 55 body.length with hlong | hshort
  · rw [packPayload, if_neg (by omega)] at h
    obtain ⟨head, hhead, -⟩ := bind_eq_ok.mp h
    rw [toBytesBig] at hhead
    have hlen : byteLength body.length ≤ 8 := by
      by_contra hlt
      rw [if_neg] at hhead
      · cases hhead
      · unfold byteLength at hlt
        omega
    simpa using byteLength_le_iff.mp hlen
  · omega

/-- A list is packed as the format has it exactly when its items are. -/
theorem packSequence_eq_encode_iff {xs : List PyVal} {body : Bytes} (hbody : body.length < 2 ^ 64) :
    (if xs.length = 0 then toBytesBig 0xC0 1 else packItems xs >>= packPayload) =
      .ok (header 0xC0 body.length ++ body) ↔ packItems xs = .ok body := by
  cases xs with
  | nil =>
    have hempty : (if ([] : List PyVal).length = 0 then toBytesBig 0xC0 1
        else packItems [] >>= packPayload) = .ok (header 0xC0 ([] : Bytes).length ++ []) := rfl
    rw [hempty, packItems, Except.ok.injEq, Except.ok.injEq]
    constructor
    · intro heq
      have hitem := listItem_header hbody
      rw [← heq] at hitem
      exact ((listItem_iff _ _).mp hitem).2.2
    · intro heq
      rw [← heq]
  | cons x xs =>
    rw [if_neg (by simp), bind_eq_ok]
    constructor
    · rintro ⟨res, hres, hpack⟩
      have hlt := length_of_packPayload hpack
      rw [packPayload_eq hlt, Except.ok.injEq] at hpack
      have hitem := listItem_header hlt
      rw [hpack] at hitem
      rw [hres, ← ((listItem_iff _ _).mp hitem).2.2,
        ((listItem_iff _ _).mp (listItem_header hbody)).2.2]
    · intro hres
      exact ⟨body, hres, packPayload_eq hbody⟩

theorem whole_packBytes {b s : Bytes} (hb : b.length < 2 ^ 64) (hs : packBytes b = .ok s) :
    Whole s := by
  rw [packBytes_eq hb, Except.ok.injEq] at hs
  rw [← hs]
  exact ((stringItem_iff _).mp (stringItem_header hb)).1

theorem whole_packSequence {xs : List PyVal} {s : Bytes}
    (hs : (if xs.length = 0 then toBytesBig 0xC0 1 else packItems xs >>= packPayload) = .ok s) :
    Whole s := by
  split at hs
  · cases hs
    exact ⟨List.cons_ne_nil _ _, rfl⟩
  · obtain ⟨res, -, hpack⟩ := bind_eq_ok.mp hs
    have hlt := length_of_packPayload hpack
    rw [packPayload_eq hlt, Except.ok.injEq] at hpack
    rw [← hpack]
    exact ((listItem_iff _ _).mp (listItem_header hlt)).1

/-- Whatever `pack` writes for a tree is one whole item. -/
theorem whole_pack {v : PyVal} (h : Tree v) (he : (item v).Encodable) {s : Bytes}
    (hs : pack v = .ok s) : Whole s := by
  cases v with
  | none =>
    cases hs
    exact ⟨List.cons_ne_nil _ _, rfl⟩
  | str t =>
    rw [item, Item.Encodable] at he
    exact whole_packBytes he hs
  | bytes b =>
    rw [item, Item.Encodable] at he
    exact whole_packBytes he hs
  | int n =>
    rw [Tree] at h
    by_cases hzero : n = 0
    · subst hzero
      cases hs
      exact ⟨List.cons_ne_nil _ _, rfl⟩
    · rw [pack, (packInt_eq_encode_iff h.1 h.2).mpr hzero, Except.ok.injEq] at hs
      rw [← hs]
      exact whole_encode he
  | list xs =>
    rw [pack] at hs
    exact whole_packSequence hs
  | tuple xs =>
    rw [pack] at hs
    exact whole_packSequence hs
  | other t => exact absurd h (by rw [Tree]; exact id)

-- ---------------------------------------------------------------------------
-- Trees, packed
-- ---------------------------------------------------------------------------

mutual

theorem pack_iff_plain : ∀ v : PyVal, Tree v → (item v).Encodable →
    (pack v = .ok (item v).encode ↔ Plain v)
  | .none, _, _ => by
    rw [Plain, iff_true]
    rfl
  | .str s, _, he => by
    rw [item, Item.Encodable] at he
    rw [pack, item, Item.encode, Plain]
    exact packBytes_eq_encode_iff he
  | .bytes b, _, he => by
    rw [item, Item.Encodable] at he
    rw [pack, item, Item.encode, Plain]
    exact packBytes_eq_encode_iff he
  | .int n, h, _ => by
    rw [Tree] at h
    rw [pack, item, Plain]
    exact packInt_eq_encode_iff h.1 h.2
  | .list xs, h, he => by
    rw [Tree] at h
    rw [item, Item.Encodable] at he
    rw [pack, item, Item.encode, Plain, packSequence_eq_encode_iff he.2]
    exact packItems_iff_plain xs h he.1
  | .tuple xs, h, he => by
    rw [Tree] at h
    rw [item, Item.Encodable] at he
    rw [pack, item, Item.encode, Plain, packSequence_eq_encode_iff he.2]
    exact packItems_iff_plain xs h he.1
  | .other _, h, _ => by
    rw [Tree] at h
    exact h.elim

/-- Where one item ends and the next begins is seen from the bytes, so that equal
concatenations have equal items. -/
theorem packItems_iff_plain : ∀ xs : List PyVal, Trees xs → AllEncodable (items xs) →
    (packItems xs = .ok (encodeAll (items xs)) ↔ PlainItems xs)
  | [], _, _ => by
    rw [PlainItems, iff_true]
    rfl
  | x :: xs, h, he => by
    rw [Trees] at h
    rw [items, AllEncodable] at he
    have hx := pack_iff_plain x h.1 he.1
    have hxs := packItems_iff_plain xs h.2 he.2
    rw [packItems, items, encodeAll, PlainItems, ← hx, ← hxs, bind_eq_ok]
    constructor
    · rintro ⟨s, hs, hrest⟩
      obtain ⟨res, hres, heq⟩ := bind_eq_ok.mp hrest
      rw [pure_eq_ok] at heq
      obtain ⟨rfl, rfl⟩ := (whole_pack h.1 he.1 hs).append_inj (whole_encode he.1) heq
      exact ⟨hs, hres⟩
    · rintro ⟨hs, hres⟩
      exact ⟨_, hs, by rw [hres]; rfl⟩

end

/-- Plain values that stand for one item have one encoding, whichever types carry them. -/
theorem pack_eq_of_item_eq {v w : PyVal} (hv : Tree v) (hw : Tree w) (he : (item v).Encodable)
    (heq : item v = item w) (pv : Plain v) (pw : Plain w) : pack v = pack w := by
  rw [(pack_iff_plain v hv he).mpr pv, (pack_iff_plain w hw (heq ▸ he)).mpr pw, heq]

/-- **The format's encoding** is what `pack` writes, for exactly the plain values. -/
theorem pack_eq_encode_iff (v : PyVal) (h : Tree v) (he : (item v).Encodable) :
    pack v = .ok (item v).encode ↔ Plain v := pack_iff_plain v h he

/-- Zero, and the number five beside the byte string that is the same item. -/
theorem pack_zero_and_byte :
    Tree (.int 0) ∧ (item (.int 0)).Encodable ∧ pack (.int 0) ≠ .ok (item (.int 0)).encode ∧
      Tree (.bytes [0x05]) ∧ item (.bytes [0x05]) = item (.int 5) ∧
      pack (.bytes [0x05]) ≠ .ok (item (.bytes [0x05])).encode ∧
      pack (.bytes [0x05]) ≠ pack (.int 5) := by
  simp only [Tree, item, Item.scalar, Item.Encodable, Item.encode]
  exact ⟨by decide, by decide, by decide, trivial, rfl, by decide, by decide⟩

/-- Numbers on both sides of every border, in nested lists. -/
def borderTree : PyVal :=
  .list [.bytes [], .int 0x7F, .int 0x80, .bytes [0x80], .tuple [.int 1024, .bytes [0x04, 0x00]]]

theorem pack_eq_encode_iff_borderTree :
    pack borderTree = .ok (item borderTree).encode ↔ Plain borderTree := by
  refine pack_eq_encode_iff borderTree ?_ ?_
  · simp only [borderTree, Tree, Trees]
    decide
  · simp only [borderTree, item, items, Item.scalar, Item.Encodable, AllEncodable]
    decide

end NeonTests.Rlp
