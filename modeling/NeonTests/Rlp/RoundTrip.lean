import NeonTests.Rlp.Definitions

/-!
# RLP codec — decoding undoes encoding

What `unpack` makes of the output of `pack`, for every value of the language
the transaction code uses, whatever bytes follow.

* `unpack_prefix_*` — one lemma per length regime: which branch of `unpack` a
  prefix written by `pack` selects, and which bytes it leaves.
* `unpack_pack` — an encoded item followed by any `rest` decodes to its
  normal form and leaves exactly `rest`.

The induction is over the value tree, and its claim is the suffix-generalised
one: the item loop decodes each item in front of the encodings of its
successors.
-/

namespace NeonTests.Rlp

open Endian Fallible Python

-- ---------------------------------------------------------------------------
-- The value language and its normal forms
-- ---------------------------------------------------------------------------

mutual

/-- The values the round trip is stated for: `None`, `str`, `bytes`, integers
`0 ≤ n < 2^256` and lists or tuples of such values, every payload shorter than
`2^64` bytes. -/
def Packable : PyVal → Prop
  | .none => True
  | .str s => (utf8 s).length < 2 ^ 64
  | .bytes b => b.length < 2 ^ 64
  | .int n => 0 ≤ n ∧ n < 2 ^ 256
  | .list xs => PackableItems xs ∧ ∀ res, packItems xs = .ok res → res.length < 2 ^ 64
  | .tuple xs => PackableItems xs ∧ ∀ res, packItems xs = .ok res → res.length < 2 ^ 64
  | .other _ => False

/-- Every item is `Packable`. -/
def PackableItems : List PyVal → Prop
  | [] => True
  | x :: xs => Packable x ∧ PackableItems xs

end

/-- The normal form of a byte string: the empty one is `None`. -/
def normBytes (b : Bytes) : PyVal := if b = [] then .none else .bytes b

mutual

/-- What is left of a value after one trip through the codec. -/
def norm : PyVal → PyVal
  | .none => .none
  | .str s => normBytes (utf8 s)
  | .bytes b => normBytes b
  | .int n => if n < 0x80 then .int n else .bytes (minBytes n.toNat)
  | .list xs => if xs = [] then .tuple [] else .list (normItems xs)
  | .tuple xs => if xs = [] then .tuple [] else .list (normItems xs)
  | .other t => .other t

/-- `norm`, elementwise. -/
def normItems : List PyVal → List PyVal
  | [] => []
  | x :: xs => norm x :: normItems xs

end

-- ---------------------------------------------------------------------------
-- Length prefixes
-- ---------------------------------------------------------------------------

private theorem toNat_ofNat_byte {n : Nat} (h : n < 256) : (UInt8.ofNat n).toNat = n := by
  rw [UInt8.toNat_ofNat']
  omega

/-- The reading of a long length prefix: the length bytes, then the payload. -/
theorem take_drop_len_prefix (l : Nat) (body rest : Bytes) (hl : body.length = l) :
    let tail := minBytes l ++ body ++ rest
    beNat (tail.take (byteLength l)) = l ∧
      (tail.drop (byteLength l)).take l = body ∧
      (tail.drop (byteLength l)).drop l = rest := by
  intro tail
  have htail : tail = minBytes l ++ (body ++ rest) := List.append_assoc ..
  have htake : tail.take (byteLength l) = minBytes l := by
    rw [htail, List.take_left' (length_minBytes l)]
  have hdrop : tail.drop (byteLength l) = body ++ rest := by
    rw [htail, List.drop_left' (length_minBytes l)]
  exact ⟨by rw [htake, beNat_minBytes], by rw [hdrop, List.take_left' hl],
    by rw [hdrop, List.drop_left' hl]⟩

/-- The number of length bytes of a payload below `2^64`. -/
theorem byteLength_le_eight {l : Nat} (h : l < 2 ^ 64) : byteLength l ≤ 8 :=
  byteLength_le_iff.mpr (by simpa using h)

theorem unpack_prefix_int {n : Nat} (h : n < 0x80) (rest : Bytes) :
    unpack (UInt8.ofNat n :: rest) = .ok (.int n, rest) := by
  rw [unpack_cons, toNat_ofNat_byte (by omega)]
  simp only
  rw [if_pos (by omega)]

theorem unpack_prefix_none (rest : Bytes) : unpack (0x80 :: rest) = .ok (.none, rest) := by
  rw [unpack_cons]
  rfl

theorem unpack_prefix_short {b : Bytes} (h0 : b ≠ []) (h : b.length ≤ 55) (rest : Bytes) :
    unpack (UInt8.ofNat (b.length + 0x80) :: (b ++ rest)) = .ok (.bytes b, rest) := by
  have hpos : 0 < b.length := List.length_pos_iff.mpr h0
  rw [unpack_cons, toNat_ofNat_byte (by omega)]
  simp only
  rw [if_neg (by omega), if_neg (by omega), if_pos (by omega), Nat.add_sub_cancel,
    List.take_left, List.drop_left]

theorem unpack_prefix_long {b : Bytes} (h : 55 < b.length) (hlt : b.length < 2 ^ 64)
    (rest : Bytes) :
    unpack (UInt8.ofNat (0xB7 + byteLength b.length) :: (minBytes b.length ++ b ++ rest)) =
      .ok (.bytes b, rest) := by
  have hle := byteLength_le_eight hlt
  have hpos := byteLength_pos (n := b.length) (by omega)
  obtain ⟨hlen, htake, hdrop⟩ := take_drop_len_prefix b.length b rest rfl
  rw [unpack_cons, toNat_ofNat_byte (by omega)]
  simp only
  rw [if_neg (by omega), if_neg (by omega), if_neg (by omega), if_pos (by omega),
    Nat.add_sub_cancel_left, hlen, htake, hdrop]

theorem unpack_prefix_empty (rest : Bytes) : unpack (0xC0 :: rest) = .ok (.tuple [], rest) := by
  rw [unpack_cons]
  rfl

theorem unpack_prefix_list {body : Bytes} {lst : List PyVal} (h0 : body ≠ [])
    (h : body.length ≤ 55) (hitems : unpackItems body = .ok lst) (rest : Bytes) :
    unpack (UInt8.ofNat (body.length + 0xC0) :: (body ++ rest)) = .ok (.list lst, rest) := by
  have hpos : 0 < body.length := List.length_pos_iff.mpr h0
  rw [unpack_cons, toNat_ofNat_byte (by omega)]
  simp only
  rw [if_neg (by omega), if_neg (by omega), if_neg (by omega), if_neg (by omega),
    if_neg (by omega), if_pos (by omega), Nat.add_sub_cancel, List.take_left, List.drop_left,
    hitems]
  rfl

theorem unpack_prefix_longList {body : Bytes} {lst : List PyVal} (h : 55 < body.length)
    (hlt : body.length < 2 ^ 64) (hitems : unpackItems body = .ok lst) (rest : Bytes) :
    unpack (UInt8.ofNat (byteLength body.length + 0xF7) ::
      (minBytes body.length ++ body ++ rest)) = .ok (.list lst, rest) := by
  have hle := byteLength_le_eight hlt
  have hpos := byteLength_pos (n := body.length) (by omega)
  obtain ⟨hlen, htake, hdrop⟩ := take_drop_len_prefix body.length body rest rfl
  rw [unpack_cons, toNat_ofNat_byte (by omega)]
  simp only
  rw [if_neg (by omega), if_neg (by omega), if_neg (by omega), if_neg (by omega),
    if_neg (by omega), if_neg (by omega), Nat.add_sub_cancel, hlen, htake, hdrop, hitems]
  rfl

-- ---------------------------------------------------------------------------
-- What pack writes
-- ---------------------------------------------------------------------------

theorem packBytes_short {b : Bytes} (h : b.length ≤ 55) :
    packBytes b = .ok (UInt8.ofNat (b.length + 0x80) :: b) := by
  have hhead : toBytesBig ((b.length : Int) + 0x80) 1 = .ok [UInt8.ofNat (b.length + 0x80)] :=
    toBytesBig_one (n := b.length + 0x80) (by omega)
  rw [packBytes, if_pos h, hhead]
  rfl

theorem packBytes_long {b : Bytes} (h : 55 < b.length) (hlt : b.length < 2 ^ 64) :
    packBytes b = .ok (UInt8.ofNat (0xB7 + byteLength b.length) :: (minBytes b.length ++ b)) := by
  have hle := byteLength_le_eight hlt
  have hhead : toBytesBig (0xB7 + ((bitLength b.length + 7) / 8 : Nat)) 1 =
      .ok [UInt8.ofNat (0xB7 + byteLength b.length)] :=
    toBytesBig_one (n := 0xB7 + byteLength b.length) (by omega)
  have hlen : toBytesBig b.length ((bitLength b.length + 7) / 8) = .ok (minBytes b.length) :=
    toBytesBig_natCast (lt_pow_byteLength b.length)
  rw [packBytes, if_neg (by omega)]
  simp only [hhead, hlen]
  rfl

theorem packInt_small {n : Nat} (h : n < 0x80) : packInt n = .ok [UInt8.ofNat n] := by
  rw [packInt, if_pos (by omega), toBytesBig_one (by omega)]

/-- Numbers whose length still fits the prefix byte. -/
theorem packInt_big {n : Nat} (h : 0x80 ≤ n) (hle : byteLength n ≤ 127) :
    packInt n = .ok (UInt8.ofNat (byteLength n + 0x80) :: minBytes n) := by
  have hhead : toBytesBig (((bitLength n + 7) / 8 : Nat) + 0x80) 1 =
      .ok [UInt8.ofNat (byteLength n + 0x80)] :=
    toBytesBig_one (n := byteLength n + 0x80) (by omega)
  have hbody : toBytesBig n ((bitLength n + 7) / 8) = .ok (minBytes n) :=
    toBytesBig_natCast (lt_pow_byteLength n)
  rw [packInt, if_neg (by omega), Int.toNat_natCast]
  simp only [hhead, hbody]
  rfl

theorem packPayload_short {body : Bytes} (h : body.length ≤ 55) :
    packPayload body = .ok (UInt8.ofNat (body.length + 0xC0) :: body) := by
  have hhead : toBytesBig ((body.length : Int) + 0xC0) 1 =
      .ok [UInt8.ofNat (body.length + 0xC0)] :=
    toBytesBig_one (n := body.length + 0xC0) (by omega)
  rw [packPayload, if_pos h, hhead]
  rfl

theorem packPayload_long {body : Bytes} (h : 55 < body.length) (hlt : body.length < 2 ^ 64) :
    packPayload body =
      .ok (UInt8.ofNat (byteLength body.length + 0xF7) :: (minBytes body.length ++ body)) := by
  have hle := byteLength_le_eight hlt
  have hhead : toBytesBig (((bitLength body.length + 7) / 8 : Nat) + 0xF7) 1 =
      .ok [UInt8.ofNat (byteLength body.length + 0xF7)] :=
    toBytesBig_one (n := byteLength body.length + 0xF7) (by omega)
  have hlen : toBytesBig body.length ((bitLength body.length + 7) / 8) =
      .ok (minBytes body.length) := toBytesBig_natCast (lt_pow_byteLength body.length)
  rw [packPayload, if_neg (by omega)]
  simp only [hhead, hlen]
  rfl

-- ---------------------------------------------------------------------------
-- One item, by kind
-- ---------------------------------------------------------------------------

/-- `s` decodes to `v` in front of any continuation. -/
def Decodes (s : Bytes) (v : PyVal) : Prop :=
  s ≠ [] ∧ ∀ rest, unpack (s ++ rest) = .ok (v, rest)

theorem decodes_packBytes {b : Bytes} (h : b.length < 2 ^ 64) :
    ∃ s, packBytes b = .ok s ∧ Decodes s (normBytes b) := by
  rcases Nat.lt_or_ge 55 b.length with hlong | hshort
  · have hne : b ≠ [] := by rintro rfl; simp at hlong
    refine ⟨_, packBytes_long hlong h, List.cons_ne_nil _ _, fun rest => ?_⟩
    rw [normBytes, if_neg hne, List.cons_append]
    exact unpack_prefix_long hlong h rest
  · refine ⟨_, packBytes_short hshort, List.cons_ne_nil _ _, fun rest => ?_⟩
    rw [List.cons_append]
    by_cases hb : b = []
    · subst hb
      exact unpack_prefix_none rest
    · rw [normBytes, if_neg hb]
      exact unpack_prefix_short hb hshort rest

theorem decodes_packInt {n : Int} (h0 : 0 ≤ n) (h : n < 2 ^ 256) :
    ∃ s, packInt n = .ok s ∧ Decodes s (norm (.int n)) := by
  obtain ⟨n, rfl⟩ := Int.eq_ofNat_of_zero_le h0
  have hlt : n < 2 ^ 256 := by exact_mod_cast h
  rcases Nat.lt_or_ge n 0x80 with hsmall | hbig
  · refine ⟨_, packInt_small hsmall, List.cons_ne_nil _ _, fun rest => ?_⟩
    rw [norm, if_pos (by omega)]
    exact unpack_prefix_int hsmall rest
  · have hpos : 0 < byteLength n := byteLength_pos (by omega)
    have hle : byteLength n ≤ 32 := byteLength_le_iff.mpr (by simpa using hlt)
    refine ⟨_, packInt_big hbig (by omega), List.cons_ne_nil _ _, fun rest => ?_⟩
    have hne : minBytes n ≠ [] :=
      List.length_pos_iff.mp (by rwa [length_minBytes])
    rw [norm, if_neg (by omega), Int.toNat_natCast, List.cons_append, ← length_minBytes n]
    exact unpack_prefix_short hne (by rw [length_minBytes]; omega) rest

/-- A decodable item sequence stays decodable behind its list prefix. -/
theorem decodes_packPayload {body : Bytes} {lst : List PyVal} (h0 : body ≠ [])
    (h : body.length < 2 ^ 64) (hitems : unpackItems body = .ok lst) :
    ∃ s, packPayload body = .ok s ∧ Decodes s (.list lst) := by
  rcases Nat.lt_or_ge 55 body.length with hlong | hshort
  · refine ⟨_, packPayload_long hlong h, List.cons_ne_nil _ _, fun rest => ?_⟩
    exact unpack_prefix_longList hlong h hitems rest
  · refine ⟨_, packPayload_short hshort, List.cons_ne_nil _ _, fun rest => ?_⟩
    exact unpack_prefix_list h0 hshort hitems rest

/-- One round of the item loop: the first item decodes, the loop goes on with
the encodings of the others. -/
theorem unpackItems_append {s body : Bytes} {v : PyVal} {lst : List PyVal}
    (hs : Decodes s v) (hbody : unpackItems body = .ok lst) :
    unpackItems (s ++ body) = .ok (v :: lst) := by
  obtain ⟨hne, hdec⟩ := hs
  obtain ⟨c, tail, rfl⟩ := List.exists_cons_of_ne_nil hne
  rw [List.cons_append, unpackItems_cons, ← List.cons_append, hdec body]
  simp only [bind, Except.bind, hbody]
  rfl

/-- The `list` and `tuple` branches of `pack` agree; both come back as a list. -/
theorem decodes_sequence {xs : List PyVal} {res : Except PyError Bytes} {v : PyVal}
    (hres : res = if xs.length = 0 then toBytesBig 0xC0 1 else packItems xs >>= packPayload)
    (hv : v = if xs = [] then .tuple [] else .list (normItems xs))
    (hlen : ∀ body, packItems xs = .ok body → body.length < 2 ^ 64)
    (hitems : ∃ body, packItems xs = .ok body ∧ (xs ≠ [] → body ≠ []) ∧
      unpackItems body = .ok (normItems xs)) :
    ∃ s, res = .ok s ∧ Decodes s v := by
  subst hres hv
  by_cases hxs : xs = []
  · subst hxs
    exact ⟨[0xC0], rfl, List.cons_ne_nil _ _, unpack_prefix_empty⟩
  · obtain ⟨body, hpack, hne, hunpack⟩ := hitems
    have hl0 : xs.length ≠ 0 := fun h => hxs (List.length_eq_zero_iff.mp h)
    rw [if_neg hxs, if_neg hl0, hpack]
    exact decodes_packPayload (hne hxs) (hlen body hpack) hunpack

-- ---------------------------------------------------------------------------
-- The round trip
-- ---------------------------------------------------------------------------

mutual

/-- An encoded item decodes to its normal form in front of anything. -/
theorem decodes_pack : ∀ v : PyVal, Packable v → ∃ s, pack v = .ok s ∧ Decodes s (norm v)
  | .none, _ => ⟨[0x80], rfl, List.cons_ne_nil _ _, unpack_prefix_none⟩
  | .str s, h => by
    rw [Packable] at h
    exact decodes_packBytes h
  | .bytes b, h => by
    rw [Packable] at h
    exact decodes_packBytes h
  | .int n, h => by
    rw [Packable] at h
    exact decodes_packInt h.1 h.2
  | .list xs, h => by
    rw [Packable] at h
    exact decodes_sequence (by rw [pack]) (by rw [norm]) h.2 (decodes_packItems xs h.1)
  | .tuple xs, h => by
    rw [Packable] at h
    exact decodes_sequence (by rw [pack]) (by rw [norm]) h.2 (decodes_packItems xs h.1)
  | .other _, h => by
    rw [Packable] at h
    exact h.elim

/-- The concatenated encodings of the items decode, in the item loop, to the
items' normal forms. -/
theorem decodes_packItems : ∀ xs : List PyVal, PackableItems xs →
    ∃ body, packItems xs = .ok body ∧ (xs ≠ [] → body ≠ []) ∧
      unpackItems body = .ok (normItems xs)
  | [], _ => ⟨[], rfl, fun h => absurd rfl h, rfl⟩
  | x :: xs, h => by
    rw [PackableItems] at h
    obtain ⟨s, hpack, hdec⟩ := decodes_pack x h.1
    obtain ⟨body, hpacks, -, hdecs⟩ := decodes_packItems xs h.2
    refine ⟨s ++ body, ?_, fun _ => ?_, ?_⟩
    · rw [packItems, hpack, hpacks]
      rfl
    · exact List.append_ne_nil_of_left_ne_nil hdec.1 body
    · rw [normItems]
      exact unpackItems_append hdec hdecs

end

/-- **Round trip.** Whatever bytes follow an encoded value, `unpack` returns
the value's normal form and exactly those bytes. -/
theorem unpack_pack (v : PyVal) (h : Packable v) :
    ∃ s, pack v = .ok s ∧ ∀ rest : Bytes, unpack (s ++ rest) = .ok (norm v, rest) := by
  obtain ⟨s, hpack, -, hdec⟩ := decodes_pack v h
  exact ⟨s, hpack, hdec⟩

/-- A tuple holding one value of every kind, a nested list among them. -/
theorem unpack_pack_nested :
    ∃ s, pack (.tuple [.none, .str "neon", .bytes [0x05], .int 7, .int 1024,
        .list [.bytes [], .list []]]) = .ok s ∧
      ∀ rest : Bytes, unpack (s ++ rest) =
        .ok (.list [.none, .bytes [0x6e, 0x65, 0x6f, 0x6e], .bytes [0x05], .int 7,
          .bytes [0x04, 0x00], .list [.none, .tuple []]], rest) := by
  refine unpack_pack (.tuple [.none, .str "neon", .bytes [0x05], .int 7, .int 1024,
    .list [.bytes [], .list []]]) ?_
  have hinner : ∀ res, packItems [.bytes [], .list []] = .ok res → res.length < 2 ^ 64 := by
    rintro _ ⟨⟩
    decide
  have houter : ∀ res, packItems [.none, .str "neon", .bytes [0x05], .int 7, .int 1024,
      .list [.bytes [], .list []]] = .ok res → res.length < 2 ^ 64 := by
    rintro _ ⟨⟩
    decide
  simp only [Packable, PackableItems]
  refine ⟨⟨trivial, by decide, by decide, by decide, by decide,
    ⟨⟨by decide, ⟨trivial, ?_⟩, trivial⟩, hinner⟩, trivial⟩, houter⟩
  rintro _ ⟨⟩
  decide

end NeonTests.Rlp
