import NeonTests.Lib.Fallible
import NeonTests.Lib.Python

/-!
# Formats — parsing and building from one description

A format is put together from smaller ones, and carries the two laws that make it one: what was
built is parsed again, whatever follows it in the stream; and what is parsed can be built, to as
many bytes as were taken. So a format that parses what it did not build cannot be written down.

* `build_injective` — a message is told from its bytes;
* `Buildable` — which values can be built;
* `Exact`, `FixedSize` — formats that parse nothing but what they build, and formats that parse
  exactly if there are enough bytes.
-/

namespace Formats

open Endian Fallible Python

inductive FormatError
  /-- too few bytes in the stream, or a field of another length -/
  | stream
  /-- a number that does not fit its field -/
  | formatField
  | const
  | unicodeDecode
  deriving DecidableEq, Repr

structure Format (α : Type) where
  parse : Bytes → Except FormatError (α × Bytes)
  build : α → Except FormatError Bytes
  parse_build : ∀ {a bs}, build a = .ok bs → ∀ rest, parse (bs ++ rest) = .ok (a, rest)
  build_parse : ∀ {bs a rest}, parse bs = .ok (a, rest) →
    ∃ front back, bs = front ++ rest ∧ build a = .ok back ∧ back.length = front.length

variable {α β : Type} {c : Format α} {a : α} {bs rest : Bytes} {n w : Nat}

namespace Format

theorem build_injective {b : α} {tail : Bytes} (ha : c.build a = .ok bs)
    (hb : c.build b = .ok (bs ++ tail)) : a = b := by
  have hparse := c.parse_build ha tail
  have hparse' := c.parse_build hb []
  rw [List.append_nil, hparse] at hparse'
  cases hparse'
  rfl

-- ---------------------------------------------------------------------------
-- Fields
-- ---------------------------------------------------------------------------

/-- The next `n` bytes. -/
def take (n : Nat) (bs : Bytes) : Except FormatError (Bytes × Bytes) :=
  if n ≤ bs.length then .ok (bs.take n, bs.drop n) else .error .stream

theorem take_append (hn : bs.length = n) (rest : Bytes) : take n (bs ++ rest) = .ok (bs, rest) := by
  rw [take, if_pos (by rw [List.length_append]; omega), List.take_left' hn, List.drop_left' hn]

theorem take_eq_ok {front : Bytes} :
    take n bs = .ok (front, rest) ↔ bs = front ++ rest ∧ front.length = n := by
  constructor
  · intro h
    unfold take at h
    split at h
    · next hle =>
      cases h
      exact ⟨(List.take_append_drop n bs).symm, List.length_take_of_le hle⟩
    · cases h
  · rintro ⟨rfl, hn⟩
    exact take_append hn rest

/-- `Bytes(n)` -/
def bytes (n : Nat) : Format Bytes where
  parse := take n
  build a := if a.length = n then .ok a else .error .stream
  parse_build h rest := by
    split at h
    · next hn =>
      cases h
      exact take_append hn rest
    · cases h
  build_parse h := by
    obtain ⟨hbs, hn⟩ := take_eq_ok.mp h
    exact ⟨_, _, hbs, if_pos hn, rfl⟩

/-- `Int8ul`, `Int16ul`, `Int32ul`, `Int64ul`; `Byte` -/
def uint (w : Nat) : Format Int where
  parse bs := do
    let (front, rest) ← take w bs
    return (leNat front, rest)
  build n := if 0 ≤ n ∧ n < 256 ^ w then .ok (leBytes w n.toNat) else .error .formatField
  parse_build {n bs} h rest := by
    split at h
    · next hrange =>
      cases h
      obtain ⟨k, rfl⟩ := Int.eq_ofNat_of_zero_le hrange.1
      have hlt : k < 256 ^ w := by exact_mod_cast hrange.2
      rw [take_append (length_leBytes ..), ok_bind, Int.toNat_natCast]
      show Except.ok ((leNat (leBytes w k) : Int), rest) = _
      rw [leNat_leBytes hlt]
    · cases h
  build_parse h := by
    obtain ⟨⟨front, rest⟩, htake, h⟩ := bind_eq_ok.mp h
    obtain ⟨hbs, hn⟩ := take_eq_ok.mp htake
    cases h
    have hlt := leNat_lt front
    rw [hn] at hlt
    exact ⟨front, _, hbs, if_pos ⟨by omega, by exact_mod_cast hlt⟩, by
      rw [length_leBytes, hn]⟩

theorem uint_build_eq_ok {k : Int} :
    (uint w).build k = .ok bs ↔ (0 ≤ k ∧ k < 256 ^ w) ∧ leBytes w k.toNat = bs := by
  unfold uint
  simp only
  split
  · next hrange => simp [hrange]
  · next hrange => simp [hrange]

/-- `Flag`: any byte but zero is true. -/
def flag : Format Bool where
  parse bs := do
    let (front, rest) ← take 1 bs
    return (front != [0], rest)
  build b := .ok [if b then 1 else 0]
  parse_build {b bs} h rest := by
    cases h
    cases b <;> rfl
  build_parse h := by
    obtain ⟨⟨front, rest⟩, htake, h⟩ := bind_eq_ok.mp h
    obtain ⟨hbs, hn⟩ := take_eq_ok.mp htake
    cases h
    exact ⟨front, _, hbs, rfl, hn.symm⟩

/-- `Const(value)` -/
def const (value : Bytes) : Format Unit where
  parse bs := do
    let (front, rest) ← take value.length bs
    guard (front = value) .const
    return ((), rest)
  build _ := .ok value
  parse_build h rest := by
    cases h
    rw [take_append rfl, ok_bind]
    exact guard_bind_eq_ok.mpr ⟨rfl, rfl⟩
  build_parse h := by
    obtain ⟨⟨front, rest⟩, htake, h⟩ := bind_eq_ok.mp h
    obtain ⟨hbs, -⟩ := take_eq_ok.mp htake
    obtain ⟨hfront, h⟩ := guard_bind_eq_ok.mp h
    cases h
    exact ⟨_, _, hbs, rfl, congrArg List.length hfront.symm⟩

-- ---------------------------------------------------------------------------
-- Putting formats together
-- ---------------------------------------------------------------------------

/-- One field behind the other. -/
def seq (c : Format α) (d : Format β) : Format (α × β) where
  parse bs := do
    let (a, rest) ← c.parse bs
    let (b, rest) ← d.parse rest
    return ((a, b), rest)
  build ab := do
    let front ← c.build ab.1
    let back ← d.build ab.2
    return front ++ back
  parse_build {ab bs} h rest := by
    obtain ⟨front, hfront, h⟩ := bind_eq_ok.mp h
    obtain ⟨back, hback, h⟩ := bind_eq_ok.mp h
    cases h
    rw [List.append_assoc, c.parse_build hfront, ok_bind]
    show (d.parse (back ++ rest) >>= _) = _
    rw [d.parse_build hback, ok_bind]
    rfl
  build_parse h := by
    obtain ⟨⟨a, tail⟩, hc, h⟩ := bind_eq_ok.mp h
    obtain ⟨⟨b, rest⟩, hd, h⟩ := bind_eq_ok.mp h
    cases h
    obtain ⟨front, built, rfl, hbuilt, hlen⟩ := c.build_parse hc
    obtain ⟨front', built', rfl, hbuilt', hlen'⟩ := d.build_parse hd
    refine ⟨front ++ front', built ++ built', (List.append_assoc ..).symm, ?_, ?_⟩
    · rw [hbuilt, ok_bind, hbuilt', ok_bind]
      rfl
    · rw [List.length_append, List.length_append, hlen, hlen']

/-- The same bytes for another form of the values. -/
def iso (c : Format α) (e : α ≃ β) : Format β where
  parse bs := do
    let (a, rest) ← c.parse bs
    return (e a, rest)
  build b := c.build (e.symm b)
  parse_build h rest := by
    rw [c.parse_build h, ok_bind]
    exact congrArg (fun x => Except.ok (x, rest)) (e.apply_symm_apply _)
  build_parse h := by
    obtain ⟨⟨a, rest⟩, hc, h⟩ := bind_eq_ok.mp h
    cases h
    rw [e.symm_apply_apply]
    exact c.build_parse hc

/-- A flag, and a value where it is set. -/
def option (c : Format α) : Format (Option α) where
  parse bs := do
    let (present, rest) ← flag.parse bs
    if present then do
      let (a, rest) ← c.parse rest
      return (some a, rest)
    else return (none, rest)
  build
    | none => flag.build false
    | some a => do
      let front ← flag.build true
      let back ← c.build a
      return front ++ back
  parse_build {a bs} h rest := by
    cases a with
    | none =>
      rw [flag.parse_build h, ok_bind]
      rfl
    | some a =>
      obtain ⟨front, hfront, h⟩ := bind_eq_ok.mp h
      obtain ⟨back, hback, h⟩ := bind_eq_ok.mp h
      cases h
      rw [List.append_assoc, flag.parse_build hfront, ok_bind]
      show (c.parse (back ++ rest) >>= _) = _
      rw [c.parse_build hback, ok_bind]
      rfl
  build_parse h := by
    obtain ⟨⟨present, tail⟩, hflag, h⟩ := bind_eq_ok.mp h
    obtain ⟨front, built, rfl, hbuilt, hlen⟩ := flag.build_parse hflag
    cases present with
    | false =>
      cases h
      exact ⟨front, built, rfl, hbuilt, hlen⟩
    | true =>
      obtain ⟨⟨a, rest⟩, hc, h⟩ := bind_eq_ok.mp h
      cases h
      obtain ⟨front', built', rfl, hbuilt', hlen'⟩ := c.build_parse hc
      refine ⟨front ++ front', built ++ built', (List.append_assoc ..).symm, ?_, ?_⟩
      · show (flag.build true >>= _) = _
        rw [hbuilt, ok_bind, hbuilt', ok_bind]
        rfl
      · rw [List.length_append, List.length_append, hlen, hlen']

/-- `n` values in a row. -/
def parseMany (c : Format α) : Nat → Bytes → Except FormatError (List α × Bytes)
  | 0, bs => .ok ([], bs)
  | n + 1, bs => do
    let (a, rest) ← c.parse bs
    let (as, rest) ← parseMany c n rest
    return (a :: as, rest)

def buildMany (c : Format α) : List α → Except FormatError Bytes
  | [] => .ok []
  | a :: as => do
    let front ← c.build a
    let back ← buildMany c as
    return front ++ back

theorem parseMany_buildMany {as : List α} (h : c.buildMany as = .ok bs) (rest : Bytes) :
    c.parseMany as.length (bs ++ rest) = .ok (as, rest) := by
  induction as generalizing bs with
  | nil =>
    cases h
    rfl
  | cons a as ih =>
    obtain ⟨front, hfront, h⟩ := bind_eq_ok.mp h
    obtain ⟨back, hback, h⟩ := bind_eq_ok.mp h
    cases h
    rw [List.append_assoc, List.length_cons, parseMany, c.parse_build hfront, ok_bind]
    show (c.parseMany as.length (back ++ rest) >>= _) = _
    rw [ih hback, ok_bind]
    rfl

theorem buildMany_parseMany {as : List α} (h : c.parseMany n bs = .ok (as, rest)) :
    as.length = n ∧ ∃ front back, bs = front ++ rest ∧ c.buildMany as = .ok back ∧
      back.length = front.length := by
  induction n generalizing bs as with
  | zero =>
    cases h
    exact ⟨rfl, [], [], rfl, rfl, rfl⟩
  | succ n ih =>
    obtain ⟨⟨a, tail⟩, hc, h⟩ := bind_eq_ok.mp h
    obtain ⟨⟨as, rest⟩, hmany, h⟩ := bind_eq_ok.mp h
    cases h
    obtain ⟨front, built, rfl, hbuilt, hlen⟩ := c.build_parse hc
    obtain ⟨hcount, front', built', rfl, hbuilt', hlen'⟩ := ih hmany
    refine ⟨congrArg Nat.succ hcount, front ++ front', built ++ built',
      (List.append_assoc ..).symm, ?_, ?_⟩
    · rw [buildMany, hbuilt, ok_bind, hbuilt', ok_bind]
      rfl
    · rw [List.length_append, List.length_append, hlen, hlen']

/-- `PrefixedArray(count, c)`, with a count of `w` bytes -/
def prefixedArray (w : Nat) (c : Format α) : Format (List α) where
  parse bs := do
    let (count, rest) ← (uint w).parse bs
    c.parseMany count.toNat rest
  build as := do
    let front ← (uint w).build as.length
    let back ← c.buildMany as
    return front ++ back
  parse_build {as bs} h rest := by
    obtain ⟨front, hfront, h⟩ := bind_eq_ok.mp h
    obtain ⟨back, hback, h⟩ := bind_eq_ok.mp h
    cases h
    rw [List.append_assoc, (uint w).parse_build hfront, ok_bind]
    exact parseMany_buildMany hback rest
  build_parse h := by
    obtain ⟨⟨count, tail⟩, hcount, hmany⟩ := bind_eq_ok.mp h
    obtain ⟨front, built, rfl, hbuilt, hlen⟩ := (uint w).build_parse hcount
    obtain ⟨hn, front', built', rfl, hbuilt', hlen'⟩ := buildMany_parseMany hmany
    have hcast : (count.toNat : Int) = count :=
      Int.toNat_of_nonneg (uint_build_eq_ok.mp hbuilt).1.1
    refine ⟨front ++ front', built ++ built', (List.append_assoc ..).symm, ?_, ?_⟩
    · rw [hn, hcast, hbuilt, ok_bind, hbuilt', ok_bind]
      rfl
    · rw [List.length_append, List.length_append, hlen, hlen']

/-- `Prefixed(length, GreedyBytes)`, with a length of `w` bytes -/
def prefixed (w : Nat) : Format Bytes where
  parse bs := do
    let (length, rest) ← (uint w).parse bs
    take length.toNat rest
  build a := do
    let front ← (uint w).build a.length
    return front ++ a
  parse_build {_ _} h rest := by
    obtain ⟨front, hfront, h⟩ := bind_eq_ok.mp h
    cases h
    rw [List.append_assoc, (uint w).parse_build hfront, ok_bind]
    exact take_append rfl rest
  build_parse {_ a _} h := by
    obtain ⟨⟨length, tail⟩, hlength, htake⟩ := bind_eq_ok.mp h
    obtain ⟨front, built, rfl, hbuilt, hlen⟩ := (uint w).build_parse hlength
    obtain ⟨rfl, hn⟩ := take_eq_ok.mp htake
    have hcast : (length.toNat : Int) = length :=
      Int.toNat_of_nonneg (uint_build_eq_ok.mp hbuilt).1.1
    refine ⟨front ++ a, built ++ a, (List.append_assoc ..).symm, ?_, ?_⟩
    · rw [hn, hcast, hbuilt, ok_bind]
      rfl
    · rw [List.length_append, List.length_append, hlen]

def decodeText (text : Bytes) : Except FormatError String :=
  match decode text with
  | .ok s => .ok s
  | .error _ => .error .unicodeDecode

theorem decodeText_eq_ok {text : Bytes} {s : String} :
    decodeText text = .ok s ↔ utf8 s = text := by
  rw [← decode_eq_ok]
  unfold decodeText
  split
  · next hdecode => rw [hdecode, Except.ok.injEq, Except.ok.injEq]
  · next hdecode => rw [hdecode]; simp

/-- `PascalString(length, "utf8")` -/
def pascalString (w : Nat) : Format String where
  parse bs := do
    let (text, rest) ← (prefixed w).parse bs
    let s ← decodeText text
    return (s, rest)
  build s := (prefixed w).build (utf8 s)
  parse_build h rest := by
    rw [(prefixed w).parse_build h, ok_bind]
    exact bind_eq_ok.mpr ⟨_, decodeText_eq_ok.mpr rfl, rfl⟩
  build_parse h := by
    obtain ⟨⟨text, tail⟩, htext, h⟩ := bind_eq_ok.mp h
    obtain ⟨s, hdecode, h⟩ := bind_eq_ok.mp h
    cases h
    rw [decodeText_eq_ok.mp hdecode]
    exact (prefixed w).build_parse htext

-- ---------------------------------------------------------------------------
-- What can be built
-- ---------------------------------------------------------------------------

def Buildable (c : Format α) (a : α) : Prop := ∃ bs, c.build a = .ok bs

@[simp] theorem buildable_bytes {bs : Bytes} : Buildable (bytes n) bs ↔ bs.length = n := by
  unfold Buildable bytes
  simp only
  split
  · next hn => simp [hn]
  · next hn => simp [hn]

@[simp] theorem buildable_uint {k : Int} : Buildable (uint w) k ↔ 0 ≤ k ∧ k < 256 ^ w := by
  simp [Buildable, uint_build_eq_ok]

@[simp] theorem buildable_flag (b : Bool) : Buildable flag b := ⟨_, rfl⟩

@[simp] theorem buildable_const (value : Bytes) (u : Unit) : Buildable (const value) u := ⟨_, rfl⟩

@[simp] theorem buildable_seq {d : Format β} {ab : α × β} :
    Buildable (c.seq d) ab ↔ Buildable c ab.1 ∧ Buildable d ab.2 := by
  constructor
  · rintro ⟨bs, h⟩
    obtain ⟨front, hfront, h⟩ := bind_eq_ok.mp h
    obtain ⟨back, hback, -⟩ := bind_eq_ok.mp h
    exact ⟨⟨front, hfront⟩, ⟨back, hback⟩⟩
  · rintro ⟨⟨front, hfront⟩, ⟨back, hback⟩⟩
    exact ⟨front ++ back, bind_eq_ok.mpr ⟨_, hfront, bind_eq_ok.mpr ⟨_, hback, rfl⟩⟩⟩

@[simp] theorem buildable_iso {e : α ≃ β} {b : β} :
    Buildable (c.iso e) b ↔ Buildable c (e.symm b) := Iff.rfl

@[simp] theorem buildable_none : Buildable (option c) none := ⟨_, rfl⟩

@[simp] theorem buildable_some : Buildable (option c) (some a) ↔ Buildable c a := by
  constructor
  · rintro ⟨bs, h⟩
    obtain ⟨front, -, h⟩ := bind_eq_ok.mp h
    obtain ⟨back, hback, -⟩ := bind_eq_ok.mp h
    exact ⟨back, hback⟩
  · rintro ⟨back, hback⟩
    exact ⟨_, bind_eq_ok.mpr ⟨_, rfl, bind_eq_ok.mpr ⟨_, hback, rfl⟩⟩⟩

theorem buildMany_returns_iff {as : List α} :
    (∃ bs, c.buildMany as = .ok bs) ↔ ∀ a ∈ as, Buildable c a := by
  induction as with
  | nil => simp [buildMany]
  | cons a as ih =>
    rw [List.forall_mem_cons, ← ih]
    constructor
    · rintro ⟨bs, h⟩
      obtain ⟨front, hfront, h⟩ := bind_eq_ok.mp h
      obtain ⟨back, hback, -⟩ := bind_eq_ok.mp h
      exact ⟨⟨front, hfront⟩, ⟨back, hback⟩⟩
    · rintro ⟨⟨front, hfront⟩, ⟨back, hback⟩⟩
      exact ⟨front ++ back, bind_eq_ok.mpr ⟨_, hfront, bind_eq_ok.mpr ⟨_, hback, rfl⟩⟩⟩

@[simp] theorem buildable_prefixedArray {as : List α} :
    Buildable (prefixedArray w c) as ↔ as.length < 256 ^ w ∧ ∀ a ∈ as, Buildable c a := by
  have hcount : Buildable (uint w) (as.length : Int) ↔ as.length < 256 ^ w := by
    rw [buildable_uint]
    exact ⟨fun h => by exact_mod_cast h.2, fun h => ⟨Int.natCast_nonneg _, by exact_mod_cast h⟩⟩
  rw [← hcount, ← buildMany_returns_iff]
  constructor
  · rintro ⟨bs, h⟩
    obtain ⟨front, hfront, h⟩ := bind_eq_ok.mp h
    obtain ⟨back, hback, -⟩ := bind_eq_ok.mp h
    exact ⟨⟨front, hfront⟩, ⟨back, hback⟩⟩
  · rintro ⟨⟨front, hfront⟩, ⟨back, hback⟩⟩
    exact ⟨front ++ back, bind_eq_ok.mpr ⟨_, hfront, bind_eq_ok.mpr ⟨_, hback, rfl⟩⟩⟩

@[simp] theorem buildable_pascalString {s : String} :
    Buildable (pascalString w) s ↔ (utf8 s).length < 256 ^ w := by
  have hlength : Buildable (uint w) ((utf8 s).length : Int) ↔ (utf8 s).length < 256 ^ w := by
    rw [buildable_uint]
    exact ⟨fun h => by exact_mod_cast h.2, fun h => ⟨Int.natCast_nonneg _, by exact_mod_cast h⟩⟩
  rw [← hlength]
  constructor
  · rintro ⟨bs, h⟩
    obtain ⟨front, hfront, -⟩ := bind_eq_ok.mp h
    exact ⟨front, hfront⟩
  · rintro ⟨front, hfront⟩
    exact ⟨_, bind_eq_ok.mpr ⟨_, hfront, rfl⟩⟩

/-- A character takes at most four bytes. -/
theorem length_utf8_le (s : String) : (utf8 s).length ≤ 4 * s.length := by
  have hchars : ∀ cs : List Char, cs.utf8Encode.size ≤ 4 * cs.length := by
    intro cs
    induction cs with
    | nil => simp
    | cons c cs ih =>
      have hchar := c.utf8Size_le_four
      have hfirst : (String.utf8EncodeChar c).toByteArray.size = c.utf8Size := by simp
      rw [List.utf8Encode_cons, ByteArray.size_append, List.utf8Encode_singleton, hfirst,
        List.length_cons]
      omega
  have hbytes : (utf8 s).length = s.toByteArray.size := rfl
  rw [hbytes, ← String.length_toList]
  have h := hchars s.toList
  rwa [← String.toByteArray_ofList, String.ofList_toList] at h

-- ---------------------------------------------------------------------------
-- Formats with one way to write a value
-- ---------------------------------------------------------------------------

/-- What is parsed was built: no two strings are parsed as one value. -/
def Exact (c : Format α) : Prop :=
  ∀ bs a rest, c.parse bs = .ok (a, rest) → ∃ front, bs = front ++ rest ∧ c.build a = .ok front

theorem exact_bytes (n : Nat) : Exact (bytes n) := fun _ _ _ h => by
  obtain ⟨hbs, hn⟩ := take_eq_ok.mp h
  exact ⟨_, hbs, if_pos hn⟩

theorem exact_uint (w : Nat) : Exact (uint w) := fun _ _ _ h => by
  obtain ⟨⟨front, rest⟩, htake, h⟩ := bind_eq_ok.mp h
  obtain ⟨hbs, hn⟩ := take_eq_ok.mp htake
  cases h
  have hlt := leNat_lt front
  have hbytes := leBytes_leNat front
  rw [hn] at hlt hbytes
  exact ⟨front, hbs, uint_build_eq_ok.mpr
    ⟨⟨by omega, by exact_mod_cast hlt⟩, by rw [Int.toNat_natCast, hbytes]⟩⟩

theorem Exact.seq {d : Format β} (hc : Exact c) (hd : Exact d) : Exact (c.seq d) :=
    fun _ _ _ h => by
  obtain ⟨⟨a, tail⟩, ha, h⟩ := bind_eq_ok.mp h
  obtain ⟨⟨b, rest⟩, hb, h⟩ := bind_eq_ok.mp h
  cases h
  obtain ⟨front, rfl, hfront⟩ := hc _ _ _ ha
  obtain ⟨back, rfl, hback⟩ := hd _ _ _ hb
  exact ⟨front ++ back, (List.append_assoc ..).symm,
    bind_eq_ok.mpr ⟨_, hfront, bind_eq_ok.mpr ⟨_, hback, rfl⟩⟩⟩

theorem Exact.iso (hc : Exact c) (e : α ≃ β) : Exact (c.iso e) := fun _ _ _ h => by
  obtain ⟨⟨a, rest⟩, ha, h⟩ := bind_eq_ok.mp h
  cases h
  obtain ⟨front, hbs, hfront⟩ := hc _ _ _ ha
  refine ⟨front, hbs, ?_⟩
  show c.build (e.symm (e a)) = _
  rw [e.symm_apply_apply, hfront]

-- ---------------------------------------------------------------------------
-- Formats of one size
-- ---------------------------------------------------------------------------

/-- `sizeof()` is `n`: there is a value exactly if there are `n` bytes, and it takes them. -/
structure FixedSize (c : Format α) (n : Nat) : Prop where
  returns : ∀ {bs}, n ≤ bs.length → ∃ a, c.parse bs = .ok (a, bs.drop n)
  takes : ∀ {bs a rest}, c.parse bs = .ok (a, rest) → n ≤ bs.length ∧ rest = bs.drop n

theorem fixedSize_bytes (n : Nat) : FixedSize (bytes n) n where
  returns h := ⟨_, if_pos h⟩
  takes h := by
    obtain ⟨rfl, hn⟩ := take_eq_ok.mp h
    exact ⟨by rw [List.length_append]; omega, (List.drop_left' hn).symm⟩

theorem fixedSize_uint (w : Nat) : FixedSize (uint w) w where
  returns {bs} h := by
    obtain ⟨front, htake⟩ := (fixedSize_bytes w).returns h
    exact ⟨leNat front, bind_eq_ok.mpr ⟨_, htake, rfl⟩⟩
  takes h := by
    obtain ⟨⟨front, rest⟩, htake, h⟩ := bind_eq_ok.mp h
    cases h
    exact (fixedSize_bytes w).takes htake

theorem FixedSize.length_build (hc : FixedSize c n) (h : c.build a = .ok bs) : bs.length = n := by
  have hparse := c.parse_build h []
  rw [List.append_nil] at hparse
  obtain ⟨hle, hnil⟩ := hc.takes hparse
  have hrest := congrArg List.length hnil
  rw [List.length_nil, List.length_drop] at hrest
  omega

theorem FixedSize.seq {d : Format β} {m : Nat} (hc : FixedSize c n) (hd : FixedSize d m) :
    FixedSize (c.seq d) (n + m) where
  returns {bs} h := by
    obtain ⟨a, ha⟩ := hc.returns (Nat.le_of_add_right_le h)
    have hm : m ≤ (bs.drop n).length := by
      rw [List.length_drop]
      omega
    obtain ⟨b, hb⟩ := hd.returns hm
    rw [List.drop_drop] at hb
    exact ⟨(a, b), bind_eq_ok.mpr ⟨_, ha, bind_eq_ok.mpr ⟨_, hb, rfl⟩⟩⟩
  takes h := by
    obtain ⟨⟨a, tail⟩, ha, h⟩ := bind_eq_ok.mp h
    obtain ⟨⟨b, rest⟩, hb, h⟩ := bind_eq_ok.mp h
    cases h
    obtain ⟨hn, rfl⟩ := hc.takes ha
    obtain ⟨hm, rfl⟩ := hd.takes hb
    rw [List.length_drop] at hm
    exact ⟨by omega, List.drop_drop ..⟩

theorem FixedSize.iso (hc : FixedSize c n) (e : α ≃ β) : FixedSize (c.iso e) n where
  returns h := by
    obtain ⟨a, ha⟩ := hc.returns h
    exact ⟨e a, bind_eq_ok.mpr ⟨_, ha, rfl⟩⟩
  takes h := by
    obtain ⟨⟨a, rest⟩, ha, h⟩ := bind_eq_ok.mp h
    cases h
    exact hc.takes ha

end Format

end Formats
