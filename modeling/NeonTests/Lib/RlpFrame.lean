import NeonTests.Lib.Endian

/-!
# Recursive length prefix — items on the wire

What a reader of the format sees before it looks into any payload: the first byte of an
item says whether it is a byte string or a list and how long it claims to be. Nothing
makes the claim true. `StringItem` and `ListItem` are the items that are there in full,
whatever number of bytes their length takes; `pieces` cuts a payload at the claimed
lengths, wherever they lead.

`strings_iff_pieces` says when that cut finds whole byte strings.
-/

namespace RlpFrame

open Endian

-- ---------------------------------------------------------------------------
-- Whole items
-- ---------------------------------------------------------------------------

/-- A byte string with its prefix. -/
inductive StringItem : Bytes → Prop
  | byte (b : UInt8) (h : b.toNat < 0x80) : StringItem [b]
  | short (bytes : Bytes) (h : bytes.length ≤ 55) :
      StringItem (UInt8.ofNat (0x80 + bytes.length) :: bytes)
  | long (len bytes : Bytes) (hpos : 1 ≤ len.length) (hle : len.length ≤ 8)
      (h : beNat len = bytes.length) :
      StringItem (UInt8.ofNat (0xB7 + len.length) :: (len ++ bytes))

/-- A payload with the prefix of a list. -/
inductive ListItem (body : Bytes) : Bytes → Prop
  | short (h : body.length ≤ 55) : ListItem body (UInt8.ofNat (0xC0 + body.length) :: body)
  | long (len : Bytes) (hpos : 1 ≤ len.length) (hle : len.length ≤ 8)
      (h : beNat len = body.length) :
      ListItem body (UInt8.ofNat (0xF7 + len.length) :: (len ++ body))

-- ---------------------------------------------------------------------------
-- Claims
-- ---------------------------------------------------------------------------

/-- The item in front claims to be a list. -/
def IsList : Bytes → Prop
  | [] => False
  | c :: _ => 0xC0 ≤ c.toNat

instance : DecidablePred IsList
  | [] => inferInstanceAs (Decidable False)
  | c :: _ => inferInstanceAs (Decidable (0xC0 ≤ c.toNat))

/-- The number of length bytes behind the first byte. -/
def lengthBytes (ch : Nat) : Nat :=
  if ch ≤ 0xB7 then 0 else if ch ≤ 0xBF then ch - 0xB7 else if ch ≤ 0xF7 then 0 else ch - 0xF7

/-- The length of the payload, as the prefix has it. -/
def payloadLength (ch : Nat) (tail : Bytes) : Nat :=
  if ch ≤ 0x7F then 0 else if ch ≤ 0xB7 then ch - 0x80
  else if ch ≤ 0xBF then beNat (tail.take (ch - 0xB7))
  else if ch ≤ 0xF7 then ch - 0xC0 else beNat (tail.take (ch - 0xF7))

/-- The number of bytes the item in front claims, its prefix included. -/
def claimed : Bytes → Nat
  | [] => 0
  | c :: tail => 1 + lengthBytes c.toNat + payloadLength c.toNat tail

/-- What is there of its payload. -/
def payload : Bytes → Bytes
  | [] => []
  | c :: tail => (tail.drop (lengthBytes c.toNat)).take (payloadLength c.toNat tail)

theorem claimed_pos {s : Bytes} (h : s ≠ []) : 1 ≤ claimed s := by
  cases s with
  | nil => exact absurd rfl h
  | cons c tail =>
    rw [claimed]
    omega

/-- A payload cut at the claimed lengths; the last piece may be short. -/
def pieces (s : Bytes) : List Bytes :=
  if s = [] then [] else s.take (claimed s) :: pieces (s.drop (claimed s))
termination_by s.length
decreasing_by
  rename_i h
  have := claimed_pos h
  have := List.length_pos_iff.mpr h
  rw [List.length_drop]
  omega

@[simp] theorem pieces_nil : pieces [] = [] := by
  rw [pieces]
  rfl

theorem pieces_of_ne_nil {s : Bytes} (h : s ≠ []) :
    pieces s = s.take (claimed s) :: pieces (s.drop (claimed s)) := by
  rw [pieces, if_neg h]

/-- The item in front is there in full, and nothing else is. -/
def Whole (s : Bytes) : Prop := s ≠ [] ∧ claimed s = s.length

instance : DecidablePred Whole := fun _ => inferInstanceAs (Decidable (_ ∧ _))

theorem isList_take {s : Bytes} {n : Nat} (h : 1 ≤ n) : IsList (s.take n) ↔ IsList s := by
  obtain ⟨n, rfl⟩ : ∃ k, n = k + 1 := ⟨n - 1, by omega⟩
  cases s with
  | nil => rfl
  | cons c tail => rfl

section

variable {ch : Nat} (tail : Bytes)

theorem lengthBytes_string (h : ch ≤ 0xB7) : lengthBytes ch = 0 := if_pos h

theorem lengthBytes_longString (h : 0xB7 < ch) (h' : ch ≤ 0xBF) : lengthBytes ch = ch - 0xB7 := by
  rw [lengthBytes, if_neg (by omega), if_pos h']

theorem lengthBytes_list (h : 0xBF < ch) (h' : ch ≤ 0xF7) : lengthBytes ch = 0 := by
  rw [lengthBytes, if_neg (by omega), if_neg (by omega), if_pos h']

theorem lengthBytes_longList (h : 0xF7 < ch) : lengthBytes ch = ch - 0xF7 := by
  rw [lengthBytes, if_neg (by omega), if_neg (by omega), if_neg (by omega)]

theorem payloadLength_byte (h : ch ≤ 0x7F) : payloadLength ch tail = 0 := if_pos h

theorem payloadLength_string (h : 0x7F < ch) (h' : ch ≤ 0xB7) :
    payloadLength ch tail = ch - 0x80 := by
  rw [payloadLength, if_neg (by omega), if_pos h']

theorem payloadLength_longString (h : 0xB7 < ch) (h' : ch ≤ 0xBF) :
    payloadLength ch tail = beNat (tail.take (ch - 0xB7)) := by
  rw [payloadLength, if_neg (by omega), if_neg (by omega), if_pos h']

theorem payloadLength_list (h : 0xBF < ch) (h' : ch ≤ 0xF7) :
    payloadLength ch tail = ch - 0xC0 := by
  rw [payloadLength, if_neg (by omega), if_neg (by omega), if_neg (by omega), if_pos h']

theorem payloadLength_longList (h : 0xF7 < ch) :
    payloadLength ch tail = beNat (tail.take (ch - 0xF7)) := by
  rw [payloadLength, if_neg (by omega), if_neg (by omega), if_neg (by omega), if_neg (by omega)]

end

/-- The five kinds of prefixes. -/
theorem prefix_cases (ch : Nat) : ch ≤ 0x7F ∨ (0x7F < ch ∧ ch ≤ 0xB7) ∨ (0xB7 < ch ∧ ch ≤ 0xBF) ∨
    (0xBF < ch ∧ ch ≤ 0xF7) ∨ 0xF7 < ch := by omega

/-- The claim is read off the length bytes alone. -/
theorem payloadLength_append (ch : Nat) {tail : Bytes} (h : lengthBytes ch ≤ tail.length)
    (rest : Bytes) : payloadLength ch (tail ++ rest) = payloadLength ch tail := by
  rcases prefix_cases ch with h1 | ⟨h1, h2⟩ | ⟨h1, h2⟩ | ⟨h1, h2⟩ | h1
  · rw [payloadLength_byte _ h1, payloadLength_byte _ h1]
  · rw [payloadLength_string _ h1 h2, payloadLength_string _ h1 h2]
  · rw [lengthBytes_longString h1 h2] at h
    rw [payloadLength_longString _ h1 h2, payloadLength_longString _ h1 h2,
      List.take_append_of_le_length h]
  · rw [payloadLength_list _ h1 h2, payloadLength_list _ h1 h2]
  · rw [lengthBytes_longList h1] at h
    rw [payloadLength_longList _ h1, payloadLength_longList _ h1,
      List.take_append_of_le_length h]

/-- What is claimed does not depend on what is behind it. -/
theorem claimed_take {s : Bytes} {n : Nat} (h : claimed s ≤ n) : claimed (s.take n) = claimed s := by
  cases s with
  | nil => rw [List.take_nil]
  | cons c tail =>
    rw [claimed] at h
    obtain ⟨n, rfl⟩ : ∃ k, n = k + 1 := ⟨n - 1, by omega⟩
    rw [List.take_succ_cons, claimed, claimed]
    rcases Nat.lt_or_ge n tail.length with hlt | hge
    · have hbytes : lengthBytes c.toNat ≤ (tail.take n).length := by
        rw [List.length_take]
        omega
      rw [← payloadLength_append c.toNat hbytes (tail.drop n), List.take_append_drop]
    · rw [List.take_of_length_le hge]

/-- A whole item claims the same in front of anything. -/
theorem Whole.claimed_append {s : Bytes} (h : Whole s) (rest : Bytes) :
    claimed (s ++ rest) = s.length := by
  obtain ⟨hne, hclaimed⟩ := h
  cases s with
  | nil => exact absurd rfl hne
  | cons c tail =>
    rw [claimed, List.length_cons] at hclaimed
    rw [List.cons_append, claimed, payloadLength_append _ (by omega), List.length_cons]
    exact hclaimed

theorem Whole.pieces_append {s : Bytes} (h : Whole s) (rest : Bytes) :
    pieces (s ++ rest) = s :: pieces rest := by
  rw [pieces_of_ne_nil (List.append_ne_nil_of_left_ne_nil h.1 rest), h.claimed_append,
    List.take_left, List.drop_left]

/-- What is in front of two equal byte strings is the same, if both times it is whole. -/
theorem Whole.append_inj {s t a b : Bytes} (hs : Whole s) (ht : Whole t) (h : s ++ a = t ++ b) :
    s = t ∧ a = b := by
  refine List.append_inj h ?_
  rw [← hs.claimed_append a, h, ht.claimed_append b]

/-- Whole items, one behind the other, are cut where they were joined. -/
theorem pieces_flatten {items : List Bytes} (h : ∀ s ∈ items, Whole s) :
    pieces items.flatten = items := by
  induction items with
  | nil => exact pieces_nil
  | cons s items ih =>
    rw [List.flatten_cons, (h s List.mem_cons_self).pieces_append,
      ih fun s' hs' => h s' (List.mem_cons_of_mem _ hs')]

theorem flatten_pieces (s : Bytes) : (pieces s).flatten = s := by
  induction s using pieces.induct with
  | case1 => rw [pieces_nil, List.flatten_nil]
  | case2 s h ih => rw [pieces_of_ne_nil h, List.flatten_cons, ih, List.take_append_drop]

/-- A piece claims at least the bytes it got. -/
theorem claimed_of_mem_pieces {s piece : Bytes} (h : piece ∈ pieces s) :
    piece ≠ [] ∧ piece.length ≤ claimed piece := by
  induction s using pieces.induct with
  | case1 => simp at h
  | case2 s hne ih =>
    rw [pieces_of_ne_nil hne, List.mem_cons] at h
    rcases h with rfl | h
    · have hpos := claimed_pos hne
      refine ⟨fun hnil => hne ((List.take_eq_nil_iff.mp hnil).resolve_left (by omega)), ?_⟩
      rw [claimed_take le_rfl, List.length_take]
      exact Nat.min_le_left _ _
    · exact ih h

-- ---------------------------------------------------------------------------
-- Whole items, by what they claim
-- ---------------------------------------------------------------------------

private theorem toNat_ofNat_prefix {n : Nat} (h : n < 256) : (UInt8.ofNat n).toNat = n := by
  rw [UInt8.toNat_ofNat']
  omega

private theorem cons_ofNat {c : UInt8} {n : Nat} (h : c.toNat = n) : c = UInt8.ofNat n := by
  rw [← h, UInt8.ofNat_toNat]

/-- The length bytes and the payload of a whole item with a long prefix. -/
theorem split_lengthBytes (tail : Bytes) {n l : Nat} (h : n + l = tail.length) :
    tail = tail.take n ++ (tail.drop n).take l ∧ (tail.take n).length = n ∧
      ((tail.drop n).take l).length = l := by
  have hdrop : (tail.drop n).length = l := by
    rw [List.length_drop]
    omega
  rw [List.take_of_length_le (le_of_eq hdrop), List.take_append_drop, List.length_take]
  exact ⟨rfl, by omega, hdrop⟩

theorem stringItem_iff (s : Bytes) : StringItem s ↔ Whole s ∧ ¬ IsList s := by
  constructor
  · rintro (⟨b, h⟩ | ⟨bytes, h⟩ | ⟨len, bytes, hpos, hle, h⟩)
    · refine ⟨⟨List.cons_ne_nil _ _, ?_⟩, by simp only [IsList]; omega⟩
      rw [claimed, lengthBytes_string (by omega), payloadLength_byte _ (by omega)]
      rfl
    · have hc := toNat_ofNat_prefix (n := 0x80 + bytes.length) (by omega)
      refine ⟨⟨List.cons_ne_nil _ _, ?_⟩, by simp only [IsList, hc]; omega⟩
      rw [claimed, hc, lengthBytes_string (by omega),
        payloadLength_string _ (by omega) (by omega), List.length_cons]
      omega
    · have hc := toNat_ofNat_prefix (n := 0xB7 + len.length) (by omega)
      refine ⟨⟨List.cons_ne_nil _ _, ?_⟩, by simp only [IsList, hc]; omega⟩
      rw [claimed, hc, lengthBytes_longString (by omega) (by omega),
        payloadLength_longString _ (by omega) (by omega), Nat.add_sub_cancel_left,
        List.take_left, h, List.length_cons, List.length_append]
      omega
  · rintro ⟨⟨hne, hclaimed⟩, hstring⟩
    cases s with
    | nil => exact absurd rfl hne
    | cons c tail =>
      simp only [IsList, not_le] at hstring
      rw [claimed, List.length_cons] at hclaimed
      rcases prefix_cases c.toNat with h1 | ⟨h1, h2⟩ | ⟨h1, h2⟩ | ⟨h1, h2⟩ | h1
      · rw [lengthBytes_string (by omega), payloadLength_byte _ h1] at hclaimed
        obtain rfl : tail = [] := List.length_eq_zero_iff.mp (by omega)
        exact .byte c (by omega)
      · rw [lengthBytes_string h2, payloadLength_string _ h1 h2] at hclaimed
        rw [cons_ofNat (c := c) (n := 0x80 + tail.length) (by omega)]
        exact .short tail (by omega)
      · rw [lengthBytes_longString h1 h2, payloadLength_longString _ h1 h2] at hclaimed
        obtain ⟨hsplit, hlen, hbody⟩ := split_lengthBytes tail (n := c.toNat - 0xB7)
          (l := beNat (tail.take (c.toNat - 0xB7))) (by omega)
        have hitem := StringItem.long (tail.take (c.toNat - 0xB7)) _ (by omega) (by omega)
          hbody.symm
        rwa [← hsplit, hlen, ← cons_ofNat (c := c) (by omega)] at hitem
      · omega
      · omega

theorem listItem_iff (body s : Bytes) :
    ListItem body s ↔ Whole s ∧ IsList s ∧ payload s = body := by
  constructor
  · rintro (h | ⟨len, hpos, hle, h⟩)
    · have hc := toNat_ofNat_prefix (n := 0xC0 + body.length) (by omega)
      have hlen : lengthBytes (0xC0 + body.length) = 0 :=
        lengthBytes_list (by omega) (by omega)
      have hpay : payloadLength (0xC0 + body.length) body = body.length := by
        rw [payloadLength_list _ (by omega) (by omega), Nat.add_sub_cancel_left]
      refine ⟨⟨List.cons_ne_nil _ _, ?_⟩, by simp only [IsList, hc]; omega, ?_⟩
      · rw [claimed, hc, hlen, hpay, List.length_cons]
        omega
      · rw [payload, hc, hlen, hpay, List.drop_zero, List.take_length]
    · have hc := toNat_ofNat_prefix (n := 0xF7 + len.length) (by omega)
      have hlen : lengthBytes (0xF7 + len.length) = len.length := by
        rw [lengthBytes_longList (by omega), Nat.add_sub_cancel_left]
      have hpay : payloadLength (0xF7 + len.length) (len ++ body) = body.length := by
        rw [payloadLength_longList _ (by omega), Nat.add_sub_cancel_left, List.take_left, h]
      refine ⟨⟨List.cons_ne_nil _ _, ?_⟩, by simp only [IsList, hc]; omega, ?_⟩
      · rw [claimed, hc, hlen, hpay, List.length_cons, List.length_append]
        omega
      · rw [payload, hc, hlen, hpay, List.drop_left, List.take_length]
  · rintro ⟨⟨hne, hclaimed⟩, hlist, rfl⟩
    cases s with
    | nil => exact absurd rfl hne
    | cons c tail =>
      have hlt := c.toNat_lt
      simp only [IsList] at hlist
      rw [claimed, List.length_cons] at hclaimed
      rw [payload]
      rcases Nat.lt_or_ge 0xF7 c.toNat with h1 | h1
      · rw [lengthBytes_longList h1, payloadLength_longList _ h1] at hclaimed ⊢
        obtain ⟨hsplit, hlen, hbody⟩ := split_lengthBytes tail (n := c.toNat - 0xF7)
          (l := beNat (tail.take (c.toNat - 0xF7))) (by omega)
        have hitem := ListItem.long (tail.take (c.toNat - 0xF7)) (by omega) (by omega)
          hbody.symm
        rwa [← hsplit, hlen, ← cons_ofNat (c := c) (by omega)] at hitem
      · rw [lengthBytes_list (by omega) h1, payloadLength_list _ (by omega) h1] at hclaimed ⊢
        rw [List.drop_zero, List.take_of_length_le (by omega),
          cons_ofNat (c := c) (n := 0xC0 + tail.length) (by omega)]
        exact .short (by omega)

/-- **Whole strings.** The cut finds the byte strings a payload was made of. -/
theorem strings_iff_pieces (body : Bytes) (n : Nat) :
    (∃ items : List Bytes, items.length = n ∧ (∀ s ∈ items, StringItem s) ∧
      items.flatten = body) ↔
    (pieces body).length = n ∧ ∀ s ∈ pieces body, Whole s ∧ ¬ IsList s := by
  constructor
  · rintro ⟨items, hlength, hstrings, rfl⟩
    have hwhole : ∀ s ∈ items, Whole s ∧ ¬ IsList s := fun s hs =>
      (stringItem_iff s).mp (hstrings s hs)
    rw [pieces_flatten fun s hs => (hwhole s hs).1]
    exact ⟨hlength, hwhole⟩
  · rintro ⟨hlength, hwhole⟩
    exact ⟨pieces body, hlength, fun s hs => (stringItem_iff s).mpr (hwhole s hs),
      flatten_pieces body⟩

end RlpFrame
