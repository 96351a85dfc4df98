import NeonTests.Lib.WordCopy
import NeonTests.Pyth.BytesLib

/-!
# BytesLib — the assembly

The same functions as inline assembly computes them, on memory in which a byte array is its
length followed by its bytes. `slice` copies whole words from a place inside the first word on
and overwrites what came too much in front with the length; the integer readers load the word
that ends where the integer ends and keep its low bytes.

* `slice_refines` — the slice of the list, in newly allocated memory;
* `mloadAt_refines` — every integer reader is `toUint` at its width;
* `concat_eq`, `equal_eq_true` — what joining and comparing give.
-/

namespace NeonTests.BytesLib

open Endian Fallible Solidity EvmMemory

-- ---------------------------------------------------------------------------
-- Functions that check and then compute in assembly
-- ---------------------------------------------------------------------------

inductive Failure
  | reverted (r : Revert)
  | halted (h : Halt)
  deriving DecidableEq, Repr

def checked {α : Type} (x : Except Revert α) : Except Failure α :=
  match x with
  | .ok a => .ok a
  | .error r => .error (.reverted r)

def assembly {α : Type} (x : Except Halt α) : Except Failure α :=
  match x with
  | .ok a => .ok a
  | .error h => .error (.halted h)

/-- `bytes` in memory: the length as a word, then the bytes. -/
def bytesValue (data : Bytes) : Bytes := beBytes 32 data.length ++ data

-- ---------------------------------------------------------------------------
-- Readers
-- ---------------------------------------------------------------------------

/-- The common body of the integer readers: the low `w` bits of the word that ends `n` bytes
behind the start. -/
def mloadAt (n w : Nat) (outOfBounds : String) (gas : Gas) (m : Memory)
    (_bytes _start : Uint256) : Except Failure (BitVec w) := do
  let size ← assembly (mload gas m _bytes)
  let last ← checked (checkedAdd _start (BitVec.ofNat 256 n))
  checked (require (last ≤ size) outOfBounds)
  let word ← assembly (mload gas m (_bytes + BitVec.ofNat 256 n + _start))
  return word.setWidth w

def mloadUint8 := mloadAt 1 8 "toUint8_outOfBounds"
def mloadUint16 := mloadAt 2 16 "toUint16_outOfBounds"
def mloadUint32 := mloadAt 4 32 "toUint32_outOfBounds"
def mloadUint64 := mloadAt 8 64 "toUint64_outOfBounds"
def mloadUint96 := mloadAt 12 96 "toUint96_outOfBounds"
def mloadUint128 := mloadAt 16 128 "toUint128_outOfBounds"
def mloadUint256 := mloadAt 32 256 "toUint256_outOfBounds"
def mloadBytes32 := mloadAt 32 256 "toBytes32_outOfBounds"

-- ---------------------------------------------------------------------------
-- Slices
-- ---------------------------------------------------------------------------

def iszero (w : Uint256) : Uint256 := if w = 0 then 1 else 0

def sliceAssembly (gas : Gas) (m : Memory) (_bytes _start _length : Uint256) :
    Except Halt (Memory × Uint256) :=
  if _length = 0 then do
    let tempBytes ← mload gas m 0x40
    let m ← mstore gas m tempBytes 0
    let m ← mstore gas m 0x40 (tempBytes + 0x20)
    return (m, tempBytes)
  else do
    let tempBytes ← mload gas m 0x40
    let lengthmod := _length &&& 31
    let mc := tempBytes + lengthmod + 0x20 * iszero lengthmod
    let cc := _bytes + lengthmod + 0x20 * iszero lengthmod + _start
    let (m, mc) ← copyLoop gas (mc + _length) gas.rounds m mc cc
    let m ← mstore gas m tempBytes _length
    -- the array is padded to whole words
    let m ← mstore gas m 0x40 ((mc + 31) &&& ~~~(31 : Uint256))
    return (m, tempBytes)

/-- `slice`, with the memory it leaves and the pointer to the new array. -/
def sliceMemory (gas : Gas) (m : Memory) (_bytes _start _length : Uint256) :
    Except Failure (Memory × Uint256) := do
  let padded ← checked (checkedAdd _length 31)
  checked (require (_length ≤ padded) "slice_overflow")
  let size ← assembly (mload gas m _bytes)
  let last ← checked (checkedAdd _start _length)
  checked (require (last ≤ size) "slice_outOfBounds")
  assembly (sliceAssembly gas m _bytes _start _length)

-- ---------------------------------------------------------------------------
-- What the functions rest on
-- ---------------------------------------------------------------------------

variable {gas : Gas} {m m' : Memory} {data chunk pre post : Bytes}
  {_bytes _start _length tempBytes : Uint256}

theorem checked_eq_ok {α : Type} {x : Except Revert α} {a : α} :
    checked x = .ok a ↔ x = .ok a := by
  cases x with
  | ok b => simp [checked]
  | error r => simp [checked]

theorem assembly_eq_ok {α : Type} {x : Except Halt α} {a : α} :
    assembly x = .ok a ↔ x = .ok a := by
  cases x with
  | ok b => simp [assembly]
  | error h => simp [assembly]

/-- The word of an array's length. -/
theorem toNat_length (hbytes : Holds m _bytes.toNat (bytesValue data))
    (hlt : data.length < 2 ^ 256) : (wordOf (read m _bytes.toNat 32)).toNat = data.length := by
  have hword : Holds m _bytes.toNat (beBytes 32 data.length) := (holds_append.mp hbytes).1
  rw [hword.read (length_beBytes ..).symm, wordOf, BitVec.toNat_ofNat,
    beNat_beBytes (by norm_num; omega), Nat.mod_eq_of_lt hlt]

/-- Its bytes, from any of them on. -/
theorem holds_drop (hbytes : Holds m _bytes.toNat (bytesValue data)) {start : Nat}
    (hstart : start ≤ data.length) : Holds m (_bytes.toNat + 32 + start) (data.drop start) := by
  have hdata : Holds m (_bytes.toNat + 32) data := by
    have := (holds_append.mp hbytes).2
    rwa [length_beBytes] at this
  rw [← List.take_append_drop start data] at hdata
  have hrest := (holds_append.mp hdata).2
  rwa [List.length_take_of_le hstart] at hrest

theorem holds_slice (hbytes : Holds m _bytes.toNat (bytesValue data)) {start n : Nat}
    (hend : start + n ≤ data.length) :
    Holds m (_bytes.toNat + 32 + start) ((data.drop start).take n) := by
  have hdrop := holds_drop hbytes (Nat.le_of_add_right_le hend)
  rw [← List.take_append_drop n (data.drop start)] at hdrop
  exact (holds_append.mp hdrop).1

def sampleGas : Gas := ⟨4096, 100, by decide⟩

/-- Two equal arrays; a byte behind the second was used before. -/
def sampleMemory : Memory :=
  write (write (write (fun _ => 0) 64 (wordBytes 256)) 128 (bytesValue [1, 2, 3]))
    192 (bytesValue [1, 2, 3] ++ [9])

theorem sampleMemory_free : Holds sampleMemory 64 (wordBytes 256) :=
  ((holds_write ..).write_of_disjoint (Or.inl (by decide))).write_of_disjoint
    (Or.inl (by decide))

theorem sampleMemory_first : Holds sampleMemory 128 (bytesValue [1, 2, 3]) :=
  (holds_write ..).write_of_disjoint (Or.inl (by decide))

theorem sampleMemory_second : Holds sampleMemory 192 (bytesValue [1, 2, 3]) :=
  (holds_append.mp (holds_write ..)).1

theorem beNat_append (xs ys : Bytes) :
    beNat (xs ++ ys) = beNat ys + 256 ^ ys.length * beNat xs := by
  rw [beNat, List.reverse_append, leNat_append, List.length_reverse]
  rfl

-- ---------------------------------------------------------------------------
-- The readers are those of the list
-- ---------------------------------------------------------------------------

/-- The low bytes of a word. -/
theorem setWidth_wordOf (front : Bytes) (hchunk : chunk.length ≤ 32) :
    (wordOf (front ++ chunk)).setWidth (8 * chunk.length) =
      BitVec.ofNat (8 * chunk.length) (beNat chunk) := by
  have hpow : 256 ^ chunk.length = 2 ^ (8 * chunk.length) := by rw [Nat.pow_mul]
  have hdvd : 2 ^ (8 * chunk.length) ∣ 2 ^ 256 := Nat.pow_dvd_pow 2 (by omega)
  apply BitVec.eq_of_toNat_eq
  rw [BitVec.toNat_setWidth, wordOf, BitVec.toNat_ofNat, Nat.mod_mod_of_dvd _ hdvd, beNat_append,
    hpow, Nat.add_mul_mod_self_left, BitVec.toNat_ofNat]

/-- **The integer readers.** A reader of `n` bytes returns exactly if the gas reaches and the
reader of the list returns, and then the same number. -/
theorem mloadAt_refines {n : Nat} (text : String) (hn : n ≤ 32)
    (hbytes : Holds m _bytes.toNat (bytesValue data)) (hlt : data.length < 2 ^ 64)
    (x : BitVec (8 * n)) :
    mloadAt n (8 * n) text gas m _bytes _start = .ok x ↔
      _bytes.toNat + n + _start.toNat + 32 ≤ gas.memory ∧
        toUint n (8 * n) text data _start.toNat = .ok x := by
  have hgas := gas.memory_lt
  have hsize := toNat_length hbytes (by omega)
  have hwidth : (BitVec.ofNat 256 n).toNat = n := by
    rw [BitVec.toNat_ofNat, Nat.mod_eq_of_lt (by omega)]
  -- the word that is loaded, if the integer is within the array
  have hword : _start.toNat + n ≤ data.length →
      (wordOf (read m (_bytes.toNat + n + _start.toNat) 32)).setWidth (8 * n) =
        BitVec.ofNat (8 * n) (beNat ((data.drop _start.toNat).take n)) := by
    intro hend
    have hlen : ((data.drop _start.toNat).take n).length = n := by
      rw [List.length_take, List.length_drop]
      omega
    have hslice := holds_slice hbytes hend
    have hplace : _bytes.toNat + n + _start.toNat + (32 - n) =
        _bytes.toNat + 32 + _start.toNat := by omega
    have hsplit : read m (_bytes.toNat + n + _start.toNat) 32 =
        read m (_bytes.toNat + n + _start.toNat) (32 - n) ++
          (data.drop _start.toNat).take n := by
      rw [← Nat.sub_add_cancel hn, read_add, Nat.sub_add_cancel hn, hplace,
        hslice.read hlen.symm]
    have hlow := setWidth_wordOf (read m (_bytes.toNat + n + _start.toNat) (32 - n))
      (hlen.le.trans hn)
    rw [hlen] at hlow
    rw [hsplit]
    exact hlow
  have hptr : _bytes.toNat + 32 ≤ gas.memory → _start.toNat + n ≤ data.length →
      (_bytes + BitVec.ofNat 256 n + _start).toNat = _bytes.toNat + n + _start.toNat := by
    intro hfront hend
    have hfirst : (_bytes + BitVec.ofNat 256 n).toNat = _bytes.toNat + n :=
      toNat_add hwidth (by omega)
    rw [toNat_add rfl (by omega), hfirst]
  unfold mloadAt toUint
  rw [require_bind_eq_ok, pure_eq_ok]
  constructor
  · intro h
    obtain ⟨size, hload, h⟩ := bind_eq_ok.mp h
    obtain ⟨hfront, rfl⟩ := mload_eq_ok.mp (assembly_eq_ok.mp hload)
    obtain ⟨last, hlast, h⟩ := bind_eq_ok.mp h
    have hlast := checkedAdd_eq_ok.mp (checked_eq_ok.mp hlast)
    obtain ⟨_, hrequire, h⟩ := bind_eq_ok.mp h
    have hle := BitVec.le_def.mp (require_eq_ok.mp (checked_eq_ok.mp hrequire))
    obtain ⟨word, hword', h⟩ := bind_eq_ok.mp h
    obtain ⟨hroom, rfl⟩ := mload_eq_ok.mp (assembly_eq_ok.mp hword')
    have hend : _start.toNat + n ≤ data.length := by omega
    rw [hptr hfront hend] at hroom h
    refine ⟨hroom, hend, ?_⟩
    rw [← hword hend]
    exact pure_eq_ok.mp h
  · rintro ⟨hroom, hend, rfl⟩
    have hfront : _bytes.toNat + 32 ≤ gas.memory := by omega
    have hsum : (_start + BitVec.ofNat 256 n).toNat = _start.toNat + n :=
      toNat_add hwidth (by omega)
    have hle : _start + BitVec.ofNat 256 n ≤ wordOf (read m _bytes.toNat 32) :=
      BitVec.le_def.mpr (by omega)
    have hlast : checkedAdd _start (BitVec.ofNat 256 n) = .ok (_start + BitVec.ofNat 256 n) :=
      checkedAdd_eq_ok.mpr (by rw [hsum, hwidth])
    refine bind_eq_ok.mpr ⟨_, assembly_eq_ok.mpr (mload_eq_ok.mpr ⟨hfront, rfl⟩), ?_⟩
    refine bind_eq_ok.mpr ⟨_, checked_eq_ok.mpr hlast, ?_⟩
    refine bind_eq_ok.mpr ⟨(), checked_eq_ok.mpr (require_eq_ok.mpr hle), ?_⟩
    refine bind_eq_ok.mpr ⟨_, assembly_eq_ok.mpr (mload_eq_ok.mpr ⟨?_, rfl⟩), ?_⟩
    · rw [hptr hfront hend]
      exact hroom
    · rw [hptr hfront hend, hword hend]
      rfl

theorem mloadUint16_sampleMemory :
    mloadUint16 sampleGas sampleMemory 128 1 = .ok 0x0203 :=
  (mloadAt_refines "toUint16_outOfBounds" (by decide) sampleMemory_first (by decide) 0x0203).mpr
    ⟨by decide, by decide⟩

-- ---------------------------------------------------------------------------
-- Slices
-- ---------------------------------------------------------------------------

/-- Where the free memory may begin behind an array: within a word of its end, and on a whole
word if the array began on one. -/
def FreeBehind (base n free : Nat) : Prop :=
  base + 32 + n ≤ free ∧ free ≤ base + 64 + n ∧ (32 ∣ base → 32 ∣ free)

/-- An array that was allocated: its value, the memory in front of it as it was but for the
free-memory pointer, and that behind it. -/
structure Allocated (m m' : Memory) (tempBytes : Uint256) (data : Bytes) : Prop where
  holds : Holds m' tempBytes.toNat (bytesValue data)
  frame : ∀ a, a < tempBytes.toNat → a < 64 ∨ 96 ≤ a → m' a = m a
  free : ∃ free : Uint256, Holds m' 64 (wordBytes free) ∧
    FreeBehind tempBytes.toNat data.length free.toNat

/-- The pointer is moved when the array is there. -/
theorem Allocated.of_free {m₁ : Memory} {free : Uint256} (hfront : 96 ≤ tempBytes.toNat)
    (hholds : Holds m₁ tempBytes.toNat (bytesValue data))
    (hframe : ∀ a, a < tempBytes.toNat → m₁ a = m a)
    (hfree : FreeBehind tempBytes.toNat data.length free.toNat) :
    Allocated m (write m₁ 64 (wordBytes free)) tempBytes data := by
  refine ⟨?_, ?_, free, holds_write .., hfree⟩
  · exact hholds.write_of_disjoint (Or.inr (by rw [length_wordBytes]; omega))
  · intro a ha hslot
    rw [write_of_outside _ (by rw [length_wordBytes]; omega), hframe a ha]

theorem iszero_eq (w : Uint256) : (0x20 * iszero w).toNat = if w.toNat = 0 then 32 else 0 := by
  have hzero : w = 0 ↔ w.toNat = 0 := by
    rw [← BitVec.toNat_inj]
    rfl
  unfold iszero
  by_cases hw : w.toNat = 0
  · rw [if_pos (hzero.mpr hw), if_pos hw]
    rfl
  · rw [if_neg (hw ∘ hzero.mp), if_neg hw]
    rfl

/-- Where in the first word the bytes begin. -/
theorem toNat_skip (base : Uint256) (n : Nat) (hn : _length.toNat = n)
    (hbase : base.toNat + 32 < 2 ^ 256) :
    (base + (_length &&& 31) + 0x20 * iszero (_length &&& 31)).toNat =
      base.toNat + 32 + n - 32 * wordCount n := by
  have hmod := toNat_and_31 _length
  have hadd : (base + (_length &&& 31)).toNat = base.toNat + n % 32 := by
    rw [toNat_add rfl (by omega), hmod, hn]
  have hskip := iszero_eq (_length &&& 31)
  rw [hmod, hn] at hskip
  unfold wordCount
  split at hskip
  · rw [toNat_add hskip (by omega), hadd]
    omega
  · rw [toNat_add hskip (by omega), hadd]
    omega

/-- An empty slice; its array is the length alone. -/
theorem sliceAssembly_empty (hfree : Holds m 64 (wordBytes tempBytes)) (hlength : _length = 0)
    (hfront : 96 ≤ tempBytes.toNat) (hroom : tempBytes.toNat + 32 ≤ gas.memory) :
    ∃ m', sliceAssembly gas m _bytes _start _length = .ok (m', tempBytes) ∧
      Allocated m m' tempBytes [] := by
  have hgas := gas.memory_lt
  have hslot : (0x40 : Uint256).toNat = 64 := rfl
  have hnext : (tempBytes + 0x20).toNat = tempBytes.toNat + 32 := toNat_add rfl (by omega)
  have hload : mload gas m 0x40 = .ok tempBytes := mload_of_holds hfree (by omega)
  have hvalue : wordBytes 0 = bytesValue [] := by decide
  refine ⟨write (write m tempBytes.toNat (wordBytes 0)) 64 (wordBytes (tempBytes + 0x20)), ?_, ?_⟩
  · rw [sliceAssembly, if_pos hlength, hload, ok_bind, mstore_eq_ok.mpr ⟨hroom, rfl⟩, ok_bind,
      mstore_eq_ok.mpr ⟨by rw [hslot]; omega, rfl⟩, ok_bind]
    rfl
  · refine Allocated.of_free hfront ?_ (fun a ha => write_of_outside _ (Or.inl ha)) ?_
    · rw [← hvalue]
      exact holds_write ..
    · rw [FreeBehind, hnext, List.length_nil]
      omega

/-- The loop copies from inside the word in front of the bytes up to their end. -/
theorem copy_slice {mc cc : Uint256} (hbytes : Holds m _bytes.toNat (bytesValue data))
    (hmc : mc.toNat = tempBytes.toNat + 32 + _length.toNat - 32 * wordCount _length.toNat)
    (hcc : cc.toNat =
      _bytes.toNat + 32 + _length.toNat - 32 * wordCount _length.toNat + _start.toNat)
    (hbehind : _bytes.toNat + 32 + data.length ≤ tempBytes.toNat)
    (hend : _start.toNat + _length.toNat ≤ data.length)
    (hroom : tempBytes.toNat + 32 + _length.toNat ≤ gas.memory)
    (hrounds : _length.toNat ≤ 32 * gas.rounds) :
    ∃ m' mc', copyLoop gas (mc + _length) gas.rounds m mc cc = .ok (m', mc') ∧
      mc'.toNat = tempBytes.toNat + 32 + _length.toNat ∧
      (∀ a, a < tempBytes.toNat → m' a = m a) ∧
      Holds m' (tempBytes.toNat + 32) ((data.drop _start.toNat).take _length.toNat) := by
  have hgas := gas.memory_lt
  have hcount : 32 * wordCount _length.toNat ≤ _length.toNat + 31 ∧
      _length.toNat ≤ 32 * wordCount _length.toNat ∧ wordCount _length.toNat ≤ gas.rounds := by
    unfold wordCount
    omega
  have hstop : (mc + _length).toNat = mc.toNat + _length.toNat := toNat_add rfl (by omega)
  have hwords : wordCount _length.toNat = wordCount ((mc + _length).toNat - mc.toNat) := by
    rw [hstop, Nat.add_sub_cancel_left]
  obtain ⟨m', mc', hloop, hmc', houtside, hinside⟩ :
      ∃ m' mc', copyLoop gas (mc + _length) gas.rounds m mc cc = .ok (m', mc') ∧ _ :=
    copyLoop_ok hwords (by omega) (Or.inr ⟨by omega, by omega⟩)
  refine ⟨m', mc', hloop, by omega, fun a ha => houtside a (by omega), ?_⟩
  refine (holds_slice hbytes hend).moved fun i hi => ?_
  rw [List.length_take, List.length_drop] at hi
  -- the bytes in front of the slice that were copied with it
  have hplace : tempBytes.toNat + 32 + i =
      mc.toNat + (32 * wordCount _length.toNat - _length.toNat + i) := by omega
  have hsource : _bytes.toNat + 32 + _start.toNat + i =
      cc.toNat + (32 * wordCount _length.toNat - _length.toNat + i) := by omega
  rw [hplace, hsource]
  exact hinside _ (by omega) (by omega)

theorem sliceAssembly_ok (hbytes : Holds m _bytes.toNat (bytesValue data))
    (hfree : Holds m 64 (wordBytes tempBytes)) (hfront : 96 ≤ _bytes.toNat)
    (hbehind : _bytes.toNat + 32 + data.length ≤ tempBytes.toNat)
    (hend : _start.toNat + _length.toNat ≤ data.length)
    (hroom : tempBytes.toNat + 32 + _length.toNat ≤ gas.memory)
    (hrounds : _length.toNat ≤ 32 * gas.rounds) :
    ∃ m', sliceAssembly gas m _bytes _start _length = .ok (m', tempBytes) ∧
      Allocated m m' tempBytes ((data.drop _start.toNat).take _length.toNat) := by
  have hgas := gas.memory_lt
  have hslot : (0x40 : Uint256).toNat = 64 := rfl
  by_cases hlength : _length = 0
  · have hnone : (data.drop _start.toNat).take _length.toNat = [] := by
      rw [hlength]
      exact List.take_zero
    rw [hnone]
    exact sliceAssembly_empty hfree hlength (by omega) (by omega)
  · have hlen : ((data.drop _start.toNat).take _length.toNat).length = _length.toNat := by
      rw [List.length_take, List.length_drop]
      omega
    have hload : mload gas m 0x40 = .ok tempBytes := mload_of_holds hfree (by omega)
    have hmc := toNat_skip tempBytes _length.toNat rfl (by omega)
    have hskip := toNat_skip _bytes _length.toNat rfl (by omega)
    have hcount : 32 * wordCount _length.toNat ≤ _length.toNat + 31 := by
      unfold wordCount
      omega
    have hcc : (_bytes + (_length &&& 31) + 0x20 * iszero (_length &&& 31) + _start).toNat =
        _bytes.toNat + 32 + _length.toNat - 32 * wordCount _length.toNat + _start.toNat := by
      rw [toNat_add rfl (by omega), hskip]
    obtain ⟨m₁, mc', hloop, hmc', hkept, hcopied⟩ :=
      copy_slice hbytes hmc hcc hbehind hend hroom hrounds
    have hpadded : ((mc' + 31) &&& ~~~(31 : Uint256)).toNat =
        32 * ((tempBytes.toNat + 32 + _length.toNat + 31) / 32) := by
      have hlast : (mc' + 31).toNat = mc'.toNat + 31 := toNat_add rfl (by omega)
      rw [toNat_and_not_31, hlast, hmc']
    refine ⟨write (write m₁ tempBytes.toNat (wordBytes _length)) 64
      (wordBytes ((mc' + 31) &&& ~~~(31 : Uint256))), ?_, ?_⟩
    · rw [sliceAssembly, if_neg hlength, hload, ok_bind]
      simp only [hloop, ok_bind]
      rw [mstore_eq_ok.mpr ⟨by omega, rfl⟩, ok_bind,
        mstore_eq_ok.mpr ⟨by rw [hslot]; omega, rfl⟩, ok_bind]
      rfl
    · refine Allocated.of_free (by omega) ?_ ?_ ?_
      · rw [bytesValue, hlen]
        refine holds_append.mpr ⟨holds_write .., ?_⟩
        rw [length_beBytes]
        exact hcopied.write_of_disjoint (Or.inr (by rw [length_wordBytes]))
      · intro a ha
        rw [write_of_outside _ (Or.inl ha), hkept a ha]
      · rw [FreeBehind, hpadded, hlen]
        omega

theorem room_of_sliceAssembly {r : Memory × Uint256} (hfree : Holds m 64 (wordBytes tempBytes))
    (hlt : _length.toNat < 2 ^ 64) (h : sliceAssembly gas m _bytes _start _length = .ok r) :
    tempBytes.toNat + 32 + _length.toNat ≤ gas.memory ∧ _length.toNat ≤ 32 * gas.rounds := by
  have hgas := gas.memory_lt
  have hslot : (0x40 : Uint256).toNat = 64 := rfl
  unfold sliceAssembly at h
  split at h
  · next hlength =>
    obtain ⟨temp, hload, h⟩ := bind_eq_ok.mp h
    have hreach := (mload_eq_ok.mp hload).1
    rw [mload_of_holds hfree hreach] at hload
    cases hload
    obtain ⟨m₁, hstore, -⟩ := bind_eq_ok.mp h
    have hroom := (mstore_eq_ok.mp hstore).1
    have hzero : _length.toNat = 0 := by
      rw [hlength]
      rfl
    omega
  · next hlength =>
    obtain ⟨temp, hload, h⟩ := bind_eq_ok.mp h
    have hreach := (mload_eq_ok.mp hload).1
    rw [mload_of_holds hfree hreach] at hload
    cases hload
    obtain ⟨⟨m₁, mc'⟩, hloop, h⟩ := bind_eq_ok.mp h
    obtain ⟨m₂, hstore, -⟩ := bind_eq_ok.mp h
    have hheader := (mstore_eq_ok.mp hstore).1
    have hpos : _length.toNat ≠ 0 := fun hzero => hlength (BitVec.eq_of_toNat_eq hzero)
    have hmc := toNat_skip tempBytes _length.toNat rfl (by omega)
    have hcount : 32 * wordCount _length.toNat ≤ _length.toNat + 31 ∧
        _length.toNat ≤ 32 * wordCount _length.toNat := by
      unfold wordCount
      omega
    have hstop : (tempBytes + (_length &&& 31) + 0x20 * iszero (_length &&& 31) +
        _length).toNat = tempBytes.toNat + 32 + _length.toNat - 32 * wordCount _length.toNat +
          _length.toNat := by
      rw [toNat_add rfl (by omega), hmc]
    have hwords : wordCount _length.toNat = wordCount ((tempBytes + (_length &&& 31) +
        0x20 * iszero (_length &&& 31) + _length).toNat -
          (tempBytes + (_length &&& 31) + 0x20 * iszero (_length &&& 31)).toNat) := by
      rw [hstop, hmc, Nat.add_sub_cancel_left]
    obtain ⟨hrounds, hnone | ⟨hroom, -⟩⟩ := room_of_copyLoop hwords hloop
    · omega
    · rw [hmc] at hroom
      omega

/-- **Slices.** For an array in front of the free memory `slice` returns exactly if the gas
reaches and the slice of the list does, and then its result is that slice as a newly allocated
array; the arrays that were there are untouched. -/
theorem slice_refines (gas : Gas) (m : Memory) (data : Bytes)
    (_bytes _start _length tempBytes : Uint256)
    (hbytes : Holds m _bytes.toNat (bytesValue data)) (hfree : Holds m 64 (wordBytes tempBytes))
    (hfront : 96 ≤ _bytes.toNat) (hlt : data.length < 2 ^ 64)
    (hbehind : _bytes.toNat + 32 + data.length ≤ tempBytes.toNat) :
    ((∃ r, sliceMemory gas m _bytes _start _length = .ok r) ↔
      tempBytes.toNat + 32 + _length.toNat ≤ gas.memory ∧ _length.toNat ≤ 32 * gas.rounds ∧
        ∃ chunk, slice data _start.toNat _length.toNat = .ok chunk) ∧
    ∀ m' pointer, sliceMemory gas m _bytes _start _length = .ok (m', pointer) →
      pointer = tempBytes ∧ ∃ chunk, slice data _start.toNat _length.toNat = .ok chunk ∧
        Allocated m m' tempBytes chunk := by
  have hgas := gas.memory_lt
  have hsize := toNat_length hbytes (by omega)
  have hslice : ∀ chunk, slice data _start.toNat _length.toNat = .ok chunk ↔
      (_length.toNat + 31 < 2 ^ 256 ∧ _start.toNat + _length.toNat ≤ data.length ∧
        (data.drop _start.toNat).take _length.toNat = chunk) := by
    intro chunk
    rw [slice, require_bind_eq_ok, require_bind_eq_ok, pure_eq_ok]
  have hsound : ∀ r, sliceMemory gas m _bytes _start _length = .ok r →
      _start.toNat + _length.toNat ≤ data.length ∧
        sliceAssembly gas m _bytes _start _length = .ok r := by
    intro r h
    obtain ⟨padded, -, h⟩ := bind_eq_ok.mp h
    obtain ⟨_, -, h⟩ := bind_eq_ok.mp h
    obtain ⟨size, hload, h⟩ := bind_eq_ok.mp h
    obtain ⟨-, rfl⟩ := mload_eq_ok.mp (assembly_eq_ok.mp hload)
    obtain ⟨last, hlast, h⟩ := bind_eq_ok.mp h
    have hlast := checkedAdd_eq_ok.mp (checked_eq_ok.mp hlast)
    obtain ⟨_, hrequire, h⟩ := bind_eq_ok.mp h
    have hle := BitVec.le_def.mp (require_eq_ok.mp (checked_eq_ok.mp hrequire))
    exact ⟨by omega, assembly_eq_ok.mp h⟩
  constructor
  · constructor
    · rintro ⟨r, h⟩
      obtain ⟨hend, hassembly⟩ := hsound r h
      obtain ⟨hroom, hrounds⟩ := room_of_sliceAssembly hfree (by omega) hassembly
      exact ⟨hroom, hrounds, _, (hslice _).mpr ⟨by omega, hend, rfl⟩⟩
    · rintro ⟨hroom, hrounds, chunk, hchunk⟩
      obtain ⟨hpadded, hend, rfl⟩ := (hslice chunk).mp hchunk
      obtain ⟨m', hassembly, -⟩ :=
        sliceAssembly_ok hbytes hfree hfront hbehind hend hroom hrounds
      have hpad : (_length + 31).toNat = _length.toNat + 31 := toNat_add rfl hpadded
      have hlast : (_start + _length).toNat = _start.toNat + _length.toNat :=
        toNat_add rfl (by omega)
      refine ⟨(m', tempBytes), ?_⟩
      refine bind_eq_ok.mpr ⟨_, checked_eq_ok.mpr (checkedAdd_eq_ok.mpr hpad), ?_⟩
      refine bind_eq_ok.mpr ⟨(), checked_eq_ok.mpr (require_eq_ok.mpr ?_), ?_⟩
      · exact BitVec.le_def.mpr (by omega)
      refine bind_eq_ok.mpr ⟨_, assembly_eq_ok.mpr (mload_eq_ok.mpr ⟨by omega, rfl⟩), ?_⟩
      refine bind_eq_ok.mpr ⟨_, checked_eq_ok.mpr (checkedAdd_eq_ok.mpr hlast), ?_⟩
      refine bind_eq_ok.mpr ⟨(), checked_eq_ok.mpr (require_eq_ok.mpr ?_), ?_⟩
      · exact BitVec.le_def.mpr (by omega)
      exact assembly_eq_ok.mpr hassembly
  · intro m' pointer h
    obtain ⟨hend, hassembly⟩ := hsound _ h
    obtain ⟨hroom, hrounds⟩ := room_of_sliceAssembly hfree (by omega) hassembly
    obtain ⟨m₁, hassembly₁, hallocated⟩ :=
      sliceAssembly_ok hbytes hfree hfront hbehind hend hroom hrounds
    cases hassembly₁.symm.trans hassembly
    exact ⟨rfl, _, (hslice _).mpr ⟨by omega, hend, rfl⟩, hallocated⟩

theorem slice_sampleMemory :
    ∃ r, sliceMemory sampleGas sampleMemory 128 1 2 = .ok r :=
  (slice_refines sampleGas sampleMemory [1, 2, 3] 128 1 2 256 sampleMemory_first
    sampleMemory_free (by decide) (by decide) (by decide)).1.mpr
    ⟨by decide, by decide, [2, 3], by decide⟩

-- ---------------------------------------------------------------------------
-- Joining
-- ---------------------------------------------------------------------------

def concatMemory (gas : Gas) (m : Memory) (_preBytes _postBytes : Uint256) :
    Except Halt (Memory × Uint256) := do
  let tempBytes ← mload gas m 0x40
  let length ← mload gas m _preBytes
  let m ← mstore gas m tempBytes length
  let mc := tempBytes + 0x20
  let stop := mc + length
  let (m, _) ← copyLoop gas stop gas.rounds m mc (_preBytes + 0x20)
  let length ← mload gas m _postBytes
  let first ← mload gas m tempBytes
  let m ← mstore gas m tempBytes (length + first)
  -- back from a multiple of 0x20 to the end of the first array
  let mc := stop
  let stop := mc + length
  let (m, _) ← copyLoop gas stop gas.rounds m mc (_postBytes + 0x20)
  let first ← mload gas m _preBytes
  let m ← mstore gas m 0x40 ((stop + iszero (length + first) + 31) &&& ~~~(31 : Uint256))
  return (m, tempBytes)

variable {_preBytes _postBytes : Uint256}

theorem bytesValue_holds {p : Nat} :
    Holds m p (bytesValue data) ↔
      Holds m p (beBytes 32 data.length) ∧ Holds m (p + 32) data := by
  rw [bytesValue, holds_append, length_beBytes]

/-- A whole array, copied to a place behind it. -/
theorem copy_array {stop mc cc : Uint256} (hdata : Holds m cc.toNat data)
    (hstop : stop.toNat = mc.toNat + data.length) (hbehind : cc.toNat + data.length ≤ mc.toNat)
    (hroom : mc.toNat + 32 * wordCount data.length ≤ gas.memory)
    (hrounds : wordCount data.length ≤ gas.rounds) :
    ∃ m' mc', copyLoop gas stop gas.rounds m mc cc = .ok (m', mc') ∧
      (∀ a, a < mc.toNat → m' a = m a) ∧ Holds m' mc.toNat data := by
  have hcount : data.length ≤ 32 * wordCount data.length := by
    unfold wordCount
    omega
  have hwords : wordCount data.length = wordCount (stop.toNat - mc.toNat) := by
    rw [hstop, Nat.add_sub_cancel_left]
  obtain ⟨m', mc', hloop, -, houtside, hinside⟩ :
      ∃ m' mc', copyLoop gas stop gas.rounds m mc cc = .ok (m', mc') ∧ _ :=
    copyLoop_ok hwords hrounds (Or.inr ⟨hroom, by omega⟩)
  refine ⟨m', mc', hloop, fun a ha => houtside a (Or.inl ha), ?_⟩
  exact hdata.moved fun i hi => hinside i (by omega) (by omega)

/-- What joining two arrays needs. -/
structure ConcatRoom (gas : Gas) (tempBytes : Uint256) (pre post : Bytes) : Prop where
  first : tempBytes.toNat + 32 + 32 * wordCount pre.length ≤ gas.memory
  second : tempBytes.toNat + 32 + pre.length + 32 * wordCount post.length ≤ gas.memory
  rounds_first : wordCount pre.length ≤ gas.rounds
  rounds_second : wordCount post.length ≤ gas.rounds

/-- Two arrays in front of the free memory. -/
structure Operands (m : Memory) (_preBytes _postBytes tempBytes : Uint256) (pre post : Bytes) :
    Prop where
  free : Holds m 64 (wordBytes tempBytes)
  pre_holds : Holds m _preBytes.toNat (bytesValue pre)
  post_holds : Holds m _postBytes.toNat (bytesValue post)
  pre_front : 96 ≤ _preBytes.toNat
  post_front : 96 ≤ _postBytes.toNat
  pre_end : _preBytes.toNat + 32 + pre.length ≤ tempBytes.toNat
  post_end : _postBytes.toNat + 32 + post.length ≤ tempBytes.toNat

theorem length_bytesValue (data : Bytes) : (bytesValue data).length = 32 + data.length := by
  rw [bytesValue, List.length_append, length_beBytes]

/-- An array's length, loaded from a memory that is the same in front of the free memory. -/
theorem mload_length {p tempBytes : Uint256} (hbytes : Holds m p.toNat (bytesValue data))
    (hend : p.toNat + 32 + data.length ≤ tempBytes.toNat) (hroom : tempBytes.toNat ≤ gas.memory)
    (hsame : ∀ a, 96 ≤ a → a < tempBytes.toNat → m' a = m a) (hfront : 96 ≤ p.toNat) :
    mload gas m' p = .ok (BitVec.ofNat 256 data.length) := by
  have hgas := gas.memory_lt
  have hbytes' : Holds m' p.toNat (bytesValue data) :=
    hbytes.unchanged fun a hlo hhi => hsame a (by omega)
      (by rw [length_bytesValue] at hhi; omega)
  refine mload_eq_ok.mpr ⟨by omega, ?_⟩
  apply BitVec.eq_of_toNat_eq
  rw [toNat_length hbytes' (by omega), BitVec.toNat_ofNat, Nat.mod_eq_of_lt (by omega)]

theorem toNat_iszero (w : Uint256) : (iszero w).toNat = if w.toNat = 0 then 1 else 0 := by
  have hzero : w = 0 ↔ w.toNat = 0 := by
    rw [← BitVec.toNat_inj]
    rfl
  unfold iszero
  by_cases hw : w.toNat = 0
  · rw [if_pos (hzero.mpr hw), if_pos hw]
    rfl
  · rw [if_neg (hw ∘ hzero.mp), if_neg hw]
    rfl

/-- The end of the new array is padded to whole words; an empty array gets a word too. -/
theorem freeBehind_padded {stop total : Uint256} {base n : Nat} (htotal : total.toNat = n)
    (hstop : stop.toNat = base + 32 + n) (hlt : stop.toNat + 32 < 2 ^ 256) :
    FreeBehind base n ((stop + iszero total + 31) &&& ~~~(31 : Uint256)).toNat := by
  have hone := toNat_iszero total
  have hpadding : (31 : Uint256).toNat = 31 := rfl
  rw [htotal] at hone
  rw [FreeBehind, toNat_and_not_31]
  split at hone
  · have hsum : (stop + iszero total).toNat = stop.toNat + 1 := toNat_add hone (by omega)
    have hpad : (stop + iszero total + 31).toNat = stop.toNat + 32 := by
      rw [toNat_add hpadding (by omega), hsum]
    omega
  · have hsum : (stop + iszero total).toNat = stop.toNat + 0 := toNat_add hone (by omega)
    have hpad : (stop + iszero total + 31).toNat = stop.toNat + 31 := by
      rw [toNat_add hpadding (by omega), hsum, Nat.add_zero]
    omega

theorem concatMemory_ok (hin : Operands m _preBytes _postBytes tempBytes pre post)
    (hroom : ConcatRoom gas tempBytes pre post) :
    ∃ m', concatMemory gas m _preBytes _postBytes = .ok (m', tempBytes) ∧
      Allocated m m' tempBytes (pre ++ post) := by
  have hgas := gas.memory_lt
  obtain ⟨hfree, hpre, hpost, hpreFront, hpostFront, hpreEnd, hpostEnd⟩ := hin
  obtain ⟨hfirst, hsecond, hroundsFirst, hroundsSecond⟩ := hroom
  have hslot : (0x40 : Uint256).toNat = 64 := rfl
  have hcount : pre.length ≤ 32 * wordCount pre.length ∧
      post.length ≤ 32 * wordCount post.length := by
    unfold wordCount
    omega
  have htemp : tempBytes.toNat ≤ gas.memory := by omega
  have hlengths : (BitVec.ofNat 256 pre.length).toNat = pre.length ∧
      (BitVec.ofNat 256 post.length).toNat = post.length := by
    rw [BitVec.toNat_ofNat, BitVec.toNat_ofNat, Nat.mod_eq_of_lt (by omega),
      Nat.mod_eq_of_lt (by omega)]
    exact ⟨rfl, rfl⟩
  -- the pointers stay within the memory that is paid for
  have hmc : (tempBytes + 0x20).toNat = tempBytes.toNat + 32 := toNat_add rfl (by omega)
  have hstop : (tempBytes + 0x20 + BitVec.ofNat 256 pre.length).toNat =
      tempBytes.toNat + 32 + pre.length := by
    rw [toNat_add hlengths.1 (by omega), hmc]
  have hstop' : (tempBytes + 0x20 + BitVec.ofNat 256 pre.length +
      BitVec.ofNat 256 post.length).toNat = tempBytes.toNat + 32 + pre.length + post.length := by
    rw [toNat_add hlengths.2 (by omega), hstop]
  have hccPre : (_preBytes + 0x20).toNat = _preBytes.toNat + 32 := toNat_add rfl (by omega)
  have hccPost : (_postBytes + 0x20).toNat = _postBytes.toNat + 32 := toNat_add rfl (by omega)
  have htotal : (BitVec.ofNat 256 post.length + BitVec.ofNat 256 pre.length).toNat =
      (pre ++ post).length := by
    rw [toNat_add hlengths.1 (by omega), hlengths.2, Nat.add_comm, List.length_append]
  -- the first array
  obtain ⟨m₁, hstore₁, hheader₁, hsame₁⟩ :
      ∃ m₁, mstore gas m tempBytes (BitVec.ofNat 256 pre.length) = .ok m₁ ∧ _ :=
    exists_mstore (by omega)
  have hdata₁ : Holds m₁ (_preBytes + 0x20).toNat pre := by
    rw [hccPre]
    exact (bytesValue_holds.mp hpre).2.unchanged fun a _ hhi => hsame₁ a (by omega)
  obtain ⟨m₂, mc₂, hloop₁, hsame₂, harray₁⟩ :=
    copy_array hdata₁ (hstop.trans (by rw [hmc])) (by omega) (by omega) hroundsFirst
  rw [hmc] at hsame₂ harray₁
  have hkeep₂ : ∀ a, a < tempBytes.toNat → m₂ a = m a := fun a ha =>
    (hsame₂ a (by omega)).trans (hsame₁ a (Or.inl ha))
  have hheader₂ : Holds m₂ tempBytes.toNat (wordBytes (BitVec.ofNat 256 pre.length)) :=
    hheader₁.unchanged fun a _ hhi => hsame₂ a (by rw [length_wordBytes] at hhi; omega)
  -- the second
  obtain ⟨m₃, hstore₃, hheader₃, hsame₃⟩ :
      ∃ m₃, mstore gas m₂ tempBytes
        (BitVec.ofNat 256 post.length + BitVec.ofNat 256 pre.length) = .ok m₃ ∧ _ :=
    exists_mstore (by omega)
  rw [wordBytes, htotal] at hheader₃
  have hdata₃ : Holds m₃ (_postBytes + 0x20).toNat post := by
    rw [hccPost]
    exact (bytesValue_holds.mp hpost).2.unchanged fun a _ hhi =>
      (hsame₃ a (by omega)).trans (hkeep₂ a (by omega))
  obtain ⟨m₄, mc₄, hloop₂, hsame₄, harray₂⟩ :=
    copy_array hdata₃ (hstop'.trans (by rw [hstop])) (by omega) (by omega) hroundsSecond
  rw [hstop] at hsame₄ harray₂
  have hkeep₄ : ∀ a, a < tempBytes.toNat → m₄ a = m a := fun a ha =>
    (hsame₄ a (by omega)).trans ((hsame₃ a (Or.inl ha)).trans (hkeep₂ a ha))
  have hheader₄ : Holds m₄ tempBytes.toNat (beBytes 32 (pre ++ post).length) :=
    hheader₃.unchanged fun a _ hhi => hsame₄ a (by rw [length_beBytes] at hhi; omega)
  have hfirst₄ : Holds m₄ (tempBytes.toNat + 32) pre :=
    harray₁.unchanged fun a hlo hhi => (hsame₄ a hhi).trans (hsame₃ a (Or.inr hlo))
  -- the free memory begins behind both
  have hbehind : FreeBehind tempBytes.toNat (pre ++ post).length _ :=
    freeBehind_padded htotal (hstop'.trans (by rw [List.length_append, Nat.add_assoc])) (by omega)
  have hallocated := Allocated.of_free (by omega)
    (bytesValue_holds.mpr ⟨hheader₄, holds_append.mpr ⟨hfirst₄, harray₂⟩⟩) hkeep₄ hbehind
  refine ⟨_, ?_, hallocated⟩
  unfold concatMemory
  rw [mload_of_holds hfree (by omega), ok_bind,
    mload_length hpre hpreEnd htemp (fun _ _ _ => rfl) hpreFront, ok_bind, hstore₁, ok_bind]
  simp only [hloop₁, ok_bind]
  rw [mload_length hpost hpostEnd htemp (fun a _ ha => hkeep₂ a ha) hpostFront, ok_bind,
    mload_of_holds hheader₂ (by omega), ok_bind, hstore₃, ok_bind]
  simp only [hloop₂, ok_bind]
  rw [mload_length hpre hpreEnd htemp (fun a _ ha => hkeep₄ a ha) hpreFront, ok_bind,
    mstore_eq_ok.mpr ⟨by rw [hslot]; omega, rfl⟩, ok_bind]
  rfl

/-- A call that returns had the gas for both copies. -/
theorem room_of_concatMemory {r : Memory × Uint256}
    (hin : Operands m _preBytes _postBytes tempBytes pre post)
    (h : concatMemory gas m _preBytes _postBytes = .ok r) : ConcatRoom gas tempBytes pre post := by
  have hgas := gas.memory_lt
  obtain ⟨hfree, hpre, hpost, hpreFront, hpostFront, hpreEnd, hpostEnd⟩ := hin
  have hcount : pre.length ≤ 32 * wordCount pre.length ∧
      (wordCount post.length = 0 → post.length = 0) := by
    unfold wordCount
    omega
  obtain ⟨temp, hload, h⟩ := bind_eq_ok.mp h
  rw [mload_of_holds hfree (mload_eq_ok.mp hload).1] at hload
  cases hload
  obtain ⟨length, hlength, h⟩ := bind_eq_ok.mp h
  obtain ⟨m₁, hstore₁, h⟩ := bind_eq_ok.mp h
  obtain ⟨hheader, hstored⟩ := mstore_eq_ok.mp hstore₁
  have htemp : tempBytes.toNat ≤ gas.memory := by omega
  rw [mload_length hpre hpreEnd htemp (fun _ _ _ => rfl) hpreFront] at hlength
  cases hlength
  obtain ⟨⟨m₂, mc₂⟩, hloop₁, h⟩ := bind_eq_ok.mp h
  have hmc : (tempBytes + 0x20).toNat = tempBytes.toNat + 32 := toNat_add rfl (by omega)
  have hpreLength : (BitVec.ofNat 256 pre.length).toNat = pre.length := by
    rw [BitVec.toNat_ofNat, Nat.mod_eq_of_lt (by omega)]
  have hstop : (tempBytes + 0x20 + BitVec.ofNat 256 pre.length).toNat =
      tempBytes.toNat + 32 + pre.length := by
    rw [toNat_add hpreLength (by omega), hmc]
  have hwords : wordCount pre.length = wordCount ((tempBytes + 0x20 +
      BitVec.ofNat 256 pre.length).toNat - (tempBytes + 0x20).toNat) := by
    rw [hstop, hmc, Nat.add_sub_cancel_left]
  obtain ⟨hroundsFirst, hfirst⟩ := room_of_copyLoop hwords hloop₁
  rw [hmc] at hfirst
  have hkeep₂ : ∀ a, 96 ≤ a → a < tempBytes.toNat → m₂ a = m a := fun a _ ha =>
    (front_of_copyLoop hloop₁ (by omega)).trans (hstored ▸ write_of_outside _ (Or.inl ha))
  obtain ⟨length, hlength, h⟩ := bind_eq_ok.mp h
  rw [mload_length hpost hpostEnd htemp hkeep₂ hpostFront] at hlength
  cases hlength
  obtain ⟨first, -, h⟩ := bind_eq_ok.mp h
  obtain ⟨m₃, -, h⟩ := bind_eq_ok.mp h
  obtain ⟨⟨m₄, mc₄⟩, hloop₂, -⟩ := bind_eq_ok.mp h
  have hpostLength : (BitVec.ofNat 256 post.length).toNat = post.length := by
    rw [BitVec.toNat_ofNat, Nat.mod_eq_of_lt (by omega)]
  have hstop' : (tempBytes + 0x20 + BitVec.ofNat 256 pre.length +
      BitVec.ofNat 256 post.length).toNat = tempBytes.toNat + 32 + pre.length + post.length := by
    rw [toNat_add hpostLength (by omega), hstop]
  have hwords' : wordCount post.length = wordCount ((tempBytes + 0x20 +
      BitVec.ofNat 256 pre.length + BitVec.ofNat 256 post.length).toNat -
        (tempBytes + 0x20 + BitVec.ofNat 256 pre.length).toNat) := by
    rw [hstop', hstop, Nat.add_sub_cancel_left]
  obtain ⟨hroundsSecond, hsecond⟩ := room_of_copyLoop hwords' hloop₂
  rw [hstop] at hsecond
  exact ⟨by omega, by omega, hroundsFirst, hroundsSecond⟩

/-- **Joining.** For two arrays in front of the free memory `concat` returns exactly if the gas
reaches, and then its result is one array after the other as a newly allocated array. The second
copy begins at the end of the first, which need not be that of a word. -/
theorem concat_eq (gas : Gas) (m : Memory) (_preBytes _postBytes tempBytes : Uint256)
    (pre post : Bytes) (hin : Operands m _preBytes _postBytes tempBytes pre post) :
    ((∃ r, concatMemory gas m _preBytes _postBytes = .ok r) ↔
      ConcatRoom gas tempBytes pre post) ∧
    ∀ m' pointer, concatMemory gas m _preBytes _postBytes = .ok (m', pointer) →
      pointer = tempBytes ∧ Allocated m m' tempBytes (pre ++ post) := by
  constructor
  · constructor
    · rintro ⟨r, h⟩
      exact room_of_concatMemory hin h
    · intro hroom
      obtain ⟨m', h, -⟩ := concatMemory_ok hin hroom
      exact ⟨_, h⟩
  · intro m' pointer h
    obtain ⟨m₁, h₁, hallocated⟩ := concatMemory_ok hin (room_of_concatMemory hin h)
    cases h₁.symm.trans h
    exact ⟨rfl, hallocated⟩

theorem concat_sampleMemory :
    ∃ r, concatMemory sampleGas sampleMemory 128 192 = .ok r :=
  (concat_eq sampleGas sampleMemory 128 192 256 [1, 2, 3] [1, 2, 3]
    ⟨sampleMemory_free, sampleMemory_first, sampleMemory_second, by decide, by decide,
      by decide, by decide⟩).1.mpr ⟨by decide, by decide, by decide, by decide⟩

-- ---------------------------------------------------------------------------
-- Comparing
-- ---------------------------------------------------------------------------

def equalMemory (gas : Gas) (m : Memory) (_preBytes _postBytes : Uint256) :
    Except Halt Bool := do
  let length ← mload gas m _preBytes
  let other ← mload gas m _postBytes
  if length = other then
    let mc := _preBytes + 0x20
    compareLoop gas m (mc + length) gas.rounds mc (_postBytes + 0x20)
  else return false

/-- Comparing two arrays word by word needs their last words whole. -/
def EqualRoom (gas : Gas) (_preBytes _postBytes : Uint256) (words : Nat) : Prop :=
  words ≤ gas.rounds ∧ _preBytes.toNat + 32 + 32 * words ≤ gas.memory ∧
    _postBytes.toNat + 32 + 32 * words ≤ gas.memory

/-- **Comparing.** `equal` says yes exactly if the arrays are equal and so are the bytes behind
them up to the end of a word, and else, if the gas reaches, no. So it never takes different
arrays for equal, but equal ones may be told apart by what stands behind them. -/
theorem equal_eq_true (gas : Gas) (m : Memory) (_preBytes _postBytes : Uint256)
    (pre post : Bytes) (hpre : Holds m _preBytes.toNat (bytesValue pre))
    (hpost : Holds m _postBytes.toNat (bytesValue post)) (hpreLt : pre.length < 2 ^ 64)
    (hpostLt : post.length < 2 ^ 64) :
    (equalMemory gas m _preBytes _postBytes = .ok true ↔
      pre = post ∧ EqualRoom gas _preBytes _postBytes (wordCount pre.length) ∧
        ∀ i, pre.length ≤ i → i < 32 * wordCount pre.length →
          m (_preBytes.toNat + 32 + i) = m (_postBytes.toNat + 32 + i)) ∧
    (EqualRoom gas _preBytes _postBytes (wordCount pre.length) →
      ∃ b, equalMemory gas m _preBytes _postBytes = .ok b) := by
  have hgas := gas.memory_lt
  obtain ⟨-, hpreData⟩ := bytesValue_holds.mp hpre
  obtain ⟨-, hpostData⟩ := bytesValue_holds.mp hpost
  have hpreSize := toNat_length hpre (by omega)
  have hpostSize := toNat_length hpost (by omega)
  have hlengths : wordOf (read m _preBytes.toNat 32) = wordOf (read m _postBytes.toNat 32) ↔
      pre.length = post.length := by
    rw [← BitVec.toNat_inj, hpreSize, hpostSize]
  -- the words that the loop takes
  have hmc : _preBytes.toNat + 32 ≤ gas.memory →
      (_preBytes + 0x20).toNat = _preBytes.toNat + 32 := fun _ => toNat_add rfl (by omega)
  have hcc : _postBytes.toNat + 32 ≤ gas.memory →
      (_postBytes + 0x20).toNat = _postBytes.toNat + 32 := fun _ => toNat_add rfl (by omega)
  have hwords : _preBytes.toNat + 32 ≤ gas.memory → wordCount pre.length =
      wordCount ((_preBytes + 0x20 + wordOf (read m _preBytes.toNat 32)).toNat -
        (_preBytes + 0x20).toNat) := by
    intro hfront
    rw [toNat_add hpreSize (by rw [hmc hfront]; omega), Nat.add_sub_cancel_left]
  have hcount : pre.length ≤ 32 * wordCount pre.length := by
    unfold wordCount
    omega
  constructor
  · constructor
    · intro h
      obtain ⟨length, hlength, h⟩ := bind_eq_ok.mp h
      obtain ⟨hfront, rfl⟩ := mload_eq_ok.mp hlength
      obtain ⟨other, hother, h⟩ := bind_eq_ok.mp h
      obtain ⟨hback, rfl⟩ := mload_eq_ok.mp hother
      split at h
      · next heq =>
        obtain ⟨hrounds, hroom, hsame⟩ := (compareLoop_eq_true (hwords hfront)).mp h
        rw [hmc hfront, hcc hback] at hroom hsame
        have hlen := hlengths.mp heq
        refine ⟨?_, ⟨hrounds, by omega, by omega⟩, fun i _ hi => hsame i hi⟩
        have hread : read m (_preBytes.toNat + 32) pre.length =
            read m (_postBytes.toNat + 32) pre.length :=
          read_eq_read_iff.mpr fun i hi => hsame i (by omega)
        rwa [hpreData.read rfl, hpostData.read hlen] at hread
      · cases h
    · rintro ⟨rfl, ⟨hrounds, hfront, hback⟩, hpadding⟩
      have hfront' : _preBytes.toNat + 32 ≤ gas.memory := by omega
      have hback' : _postBytes.toNat + 32 ≤ gas.memory := by omega
      refine bind_eq_ok.mpr ⟨_, mload_eq_ok.mpr ⟨hfront', rfl⟩, ?_⟩
      refine bind_eq_ok.mpr ⟨_, mload_eq_ok.mpr ⟨hback', rfl⟩, ?_⟩
      refine (if_pos (hlengths.mpr rfl)).trans ((compareLoop_eq_true (hwords hfront')).mpr ?_)
      rw [hmc hfront', hcc hback']
      refine ⟨hrounds, Or.inr ⟨hfront, hback⟩, fun i hi => ?_⟩
      by_cases hdata : i < pre.length
      · exact read_eq_read_iff.mp (hpreData.trans hpostData.symm) i hdata
      · exact hpadding i (by omega) hi
  · rintro ⟨hrounds, hfront, hback⟩
    have hfront' : _preBytes.toNat + 32 ≤ gas.memory := by omega
    have hback' : _postBytes.toNat + 32 ≤ gas.memory := by omega
    unfold equalMemory
    rw [mload_eq_ok.mpr ⟨hfront', rfl⟩, ok_bind, mload_eq_ok.mpr ⟨hback', rfl⟩, ok_bind]
    split
    · exact exists_compareLoop (hwords hfront') hrounds (by rw [hmc hfront']; omega)
        (by rw [hcc hback']; omega)
    · exact ⟨false, rfl⟩

theorem equal_sampleMemory : equalMemory sampleGas sampleMemory 128 192 ≠ .ok true := by
  intro h
  obtain ⟨-, -, hpadding⟩ := (equal_eq_true sampleGas sampleMemory 128 192 [1, 2, 3] [1, 2, 3]
    sampleMemory_first sampleMemory_second (by decide) (by decide)).1.mp h
  exact absurd (hpadding 3 (by decide) (by decide)) (by decide)

end NeonTests.BytesLib
