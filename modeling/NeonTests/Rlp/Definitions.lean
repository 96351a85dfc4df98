import NeonTests.Lib.Python

/-!
# RLP codec — the Python implementation

`pack` and `unpack` of `integration/tests/neon_evm/utils/eth_tx_utils.py`, over
the Python values they work on.

`unpack` slices a `memoryview` and recurses into the slice. Every call eats at
least one byte, so the model runs it on a fuel that the input's length bounds:
`unpack_cons` and `unpackItems_cons` state the two loops without fuel, and are
all the rest of the development uses.
-/

namespace NeonTests.Rlp

open Endian Fallible Python

/-- A Python value, as `isinstance` tells them apart. -/
inductive PyVal
  | none
  | str (s : String)
  | bytes (b : Bytes)
  | int (n : Int)
  | list (xs : List PyVal)
  | tuple (xs : List PyVal)
  /-- any other class, known by `str(type(data))` -/
  | other (typeName : String)

-- ---------------------------------------------------------------------------
-- pack
-- ---------------------------------------------------------------------------

/-- The `bytes` branch of `pack`. -/
def packBytes (data : Bytes) : Except PyError Bytes :=
  if data.length ≤ 55 then do
    let head ← toBytesBig (data.length + 0x80) 1
    return head ++ data
  else do
    let lLen := (bitLength data.length + 7) / 8
    let head ← toBytesBig (0xB7 + lLen) 1
    let len ← toBytesBig data.length lLen
    return head ++ len ++ data

/-- The `int` branch of `pack`. -/
def packInt (data : Int) : Except PyError Bytes :=
  if data < 0x80 then toBytesBig data 1
  else do
    let l := (bitLength data.toNat + 7) / 8
    let head ← toBytesBig (l + 0x80) 1
    let body ← toBytesBig data l
    return head ++ body

/-- The end of the `list`/`tuple` branch of `pack`: the length prefix of the
items' concatenation `res`. -/
def packPayload (res : Bytes) : Except PyError Bytes :=
  if res.length ≤ 55 then do
    let head ← toBytesBig (res.length + 0xC0) 1
    return head ++ res
  else do
    let lLen := (bitLength res.length + 7) / 8
    let head ← toBytesBig (lLen + 0xF7) 1
    let len ← toBytesBig res.length lLen
    return head ++ len ++ res

mutual

/-- `pack(data)` -/
def pack : PyVal → Except PyError Bytes
  | .none => toBytesBig 0x80 1
  | .str s => packBytes (utf8 s)
  | .bytes b => packBytes b
  | .int n => packInt n
  | .list xs => if xs.length = 0 then toBytesBig 0xC0 1 else packItems xs >>= packPayload
  | .tuple xs => if xs.length = 0 then toBytesBig 0xC0 1 else packItems xs >>= packPayload
  | .other t => .error (.exception ("Unknown type " ++ t ++ " of data"))

/-- `for d in data: res += pack(d)` -/
def packItems : List PyVal → Except PyError Bytes
  | [] => .ok []
  | d :: ds => do
    let x ← pack d
    let res ← packItems ds
    return x ++ res

end

-- ---------------------------------------------------------------------------
-- unpack
-- ---------------------------------------------------------------------------

mutual

/-- `unpack(data)` on a bounded number of calls and loop rounds. -/
def unpackFuel : Nat → Bytes → Except PyError (PyVal × Bytes)
  | 0, _ => .error .recursionError
  | _ + 1, [] => .error .indexError
  | fuel + 1, c :: tail =>
    let ch := c.toNat
    if ch ≤ 0x7F then .ok (.int ch, tail)
    else if ch = 0x80 then .ok (.none, tail)
    else if ch ≤ 0xB7 then
      let l := ch - 0x80
      .ok (.bytes (tail.take l), tail.drop l)
    else if ch ≤ 0xBF then
      let lLen := ch - 0xB7
      let l := beNat (tail.take lLen)
      .ok (.bytes ((tail.drop lLen).take l), (tail.drop lLen).drop l)
    else if ch = 0xC0 then .ok (.tuple [], tail)
    else if ch ≤ 0xF7 then do
      let l := ch - 0xC0
      let lst ← unpackItemsFuel fuel (tail.take l)
      return (.list lst, tail.drop l)
    else do
      let lLen := ch - 0xF7
      let l := beNat (tail.take lLen)
      let lst ← unpackItemsFuel fuel ((tail.drop lLen).take l)
      return (.list lst, (tail.drop lLen).drop l)

/-- `while len(sub): (item, sub) = unpack(sub); lst.append(item)` -/
def unpackItemsFuel : Nat → Bytes → Except PyError (List PyVal)
  | 0, _ => .error .recursionError
  | _ + 1, [] => .ok []
  | fuel + 1, c :: tail => do
    let (item, sub) ← unpackFuel fuel (c :: tail)
    let lst ← unpackItemsFuel fuel sub
    return item :: lst

end

/-- `unpack(data)` -/
def unpack (data : Bytes) : Except PyError (PyVal × Bytes) :=
  unpackFuel (2 * data.length + 1) data

/-- The item loop of `unpack` on the slice `sub`. -/
def unpackItems (sub : Bytes) : Except PyError (List PyVal) :=
  unpackItemsFuel (2 * sub.length + 2) sub

/-- Every successful call eats at least the byte it looked at. -/
theorem unpackFuel_length_lt {fuel : Nat} {data rest : Bytes} {v : PyVal}
    (h : unpackFuel fuel data = .ok (v, rest)) : rest.length < data.length := by
  cases fuel with
  | zero => simp [unpackFuel] at h
  | succ fuel =>
    cases data with
    | nil => simp [unpackFuel] at h
    | cons c tail =>
      simp only [unpackFuel] at h
      split_ifs at h
      all_goals
        try obtain ⟨lst, -, h⟩ := bind_eq_ok.mp h
        simp only [pure, Except.pure, Except.ok.injEq, Prod.mk.injEq] at h
        obtain ⟨-, rfl⟩ := h
        simp only [List.length_cons, List.length_drop]
        omega

/-- More fuel than the input's length asks for changes nothing. -/
theorem unpackFuel_stable (n : Nat) :
    (∀ (data : Bytes) (f : Nat), data.length ≤ n → 2 * data.length + 1 ≤ f →
      unpackFuel f data = unpack data) ∧
    (∀ (sub : Bytes) (f : Nat), sub.length ≤ n → 2 * sub.length + 2 ≤ f →
      unpackItemsFuel f sub = unpackItems sub) := by
  induction n with
  | zero =>
    constructor
    · intro data f hn hf
      obtain rfl : data = [] := List.length_eq_zero_iff.mp (Nat.le_zero.mp hn)
      obtain ⟨f, rfl⟩ : ∃ k, f = k + 1 := ⟨f - 1, by omega⟩
      rfl
    · intro sub f hn hf
      obtain rfl : sub = [] := List.length_eq_zero_iff.mp (Nat.le_zero.mp hn)
      obtain ⟨f, rfl⟩ : ∃ k, f = k + 1 := ⟨f - 1, by omega⟩
      rfl
  | succ n ih =>
    obtain ⟨-, ihItems⟩ := ih
    have hItem : ∀ (data : Bytes) (f : Nat), data.length ≤ n + 1 → 2 * data.length + 1 ≤ f →
        unpackFuel f data = unpack data := by
      intro data f hn hf
      obtain ⟨f, rfl⟩ : ∃ k, f = k + 1 := ⟨f - 1, by omega⟩
      cases data with
      | nil => rfl
      | cons c tail =>
        simp only [List.length_cons] at hn hf
        -- both sides run the item loop on the same slice of the tail
        have hloop : ∀ sub : Bytes, sub.length ≤ tail.length →
            unpackItemsFuel f sub = unpackItemsFuel (2 * (c :: tail).length) sub := by
          intro sub hsub
          simp only [List.length_cons]
          rw [ihItems sub f (by omega) (by omega), ihItems sub _ (by omega) (by omega)]
        rw [unpack]
        simp only [unpackFuel]
        rw [hloop (tail.take _) (by simp), hloop ((tail.drop _).take _) (by simp)]
    refine ⟨hItem, ?_⟩
    intro sub f hn hf
    obtain ⟨f, rfl⟩ : ∃ k, f = k + 1 := ⟨f - 1, by omega⟩
    cases sub with
    | nil => rfl
    | cons c tail =>
      rw [unpackItems]
      simp only [unpackItemsFuel]
      rw [hItem (c :: tail) f hn (by omega), hItem (c :: tail) _ hn le_rfl]
      cases hu : unpack (c :: tail) with
      | error e => rfl
      | ok r =>
        obtain ⟨item, sub⟩ := r
        have hlt := unpackFuel_length_lt hu
        simp only [List.length_cons] at hlt hn hf
        simp only [bind, Except.bind]
        rw [ihItems sub f (by omega) (by omega),
          ihItems sub _ (by omega) (by simp only [List.length_cons]; omega)]

@[simp] theorem unpack_nil : unpack [] = .error .indexError := rfl

@[simp] theorem unpackItems_nil : unpackItems [] = .ok [] := rfl

theorem unpack_length_lt {data rest : Bytes} {v : PyVal}
    (h : unpack data = .ok (v, rest)) : rest.length < data.length :=
  unpackFuel_length_lt h

/-- `unpack`, as the source reads. -/
theorem unpack_cons (c : UInt8) (tail : Bytes) :
    unpack (c :: tail) =
      let ch := c.toNat
      if ch ≤ 0x7F then .ok (.int ch, tail)
      else if ch = 0x80 then .ok (.none, tail)
      else if ch ≤ 0xB7 then
        let l := ch - 0x80
        .ok (.bytes (tail.take l), tail.drop l)
      else if ch ≤ 0xBF then
        let lLen := ch - 0xB7
        let l := beNat (tail.take lLen)
        .ok (.bytes ((tail.drop lLen).take l), (tail.drop lLen).drop l)
      else if ch = 0xC0 then .ok (.tuple [], tail)
      else if ch ≤ 0xF7 then do
        let l := ch - 0xC0
        let lst ← unpackItems (tail.take l)
        return (.list lst, tail.drop l)
      else do
        let lLen := ch - 0xF7
        let l := beNat (tail.take lLen)
        let lst ← unpackItems ((tail.drop lLen).take l)
        return (.list lst, (tail.drop lLen).drop l) := by
  have hloop : ∀ sub : Bytes, sub.length ≤ tail.length →
      unpackItemsFuel (2 * (tail.length + 1)) sub = unpackItems sub := fun sub hsub =>
    (unpackFuel_stable sub.length).2 sub _ le_rfl (by omega)
  rw [unpack]
  simp only [List.length_cons, unpackFuel]
  rw [hloop (tail.take _) (by simp), hloop ((tail.drop _).take _) (by simp)]

/-- One round of the item loop, as the source reads. -/
theorem unpackItems_cons (c : UInt8) (tail : Bytes) :
    unpackItems (c :: tail) = (do
      let (item, sub) ← unpack (c :: tail)
      let lst ← unpackItems sub
      return item :: lst) := by
  rw [unpackItems]
  simp only [unpackItemsFuel]
  rw [(unpackFuel_stable _).1 (c :: tail) _ le_rfl (by omega)]
  cases hu : unpack (c :: tail) with
  | error e => rfl
  | ok r =>
    obtain ⟨item, sub⟩ := r
    have hlt := unpack_length_lt hu
    simp only [bind, Except.bind]
    rw [(unpackFuel_stable sub.length).2 sub _ le_rfl (by omega)]

end NeonTests.Rlp
