import Mathlib.Data.Nat.Bitwise
import Mathlib.Tactic.Ring

/-!
# Byte strings and the numbers they denote

Little- and big-endian readings of a byte string, the fixed-width encodings
that invert them, and the least number of bytes a number needs. The formats
built on top of this file (length prefixes, fixed-offset records) use three
groups of facts:

* `leNat_leBytes` / `beNat_beBytes` — a value that fits its width reads back;
* `beNat_minBytes` / `byteLength_le_iff` — the minimal encoding of a number,
  and when it fits a bound;
* `testBit_leNat` / `testBit_beNat` — a bit of the number is a bit of one byte,
  which is what byte-reversal code is checked against.
-/

namespace Endian

abbrev Bytes := List UInt8

-- ---------------------------------------------------------------------------
-- Readings and encodings
-- ---------------------------------------------------------------------------

/-- The number whose least significant byte comes first. -/
def leNat : Bytes → Nat
  | [] => 0
  | b :: bs => b.toNat + 256 * leNat bs

/-- The number whose most significant byte comes first. -/
def beNat (bs : Bytes) : Nat := leNat bs.reverse

/-- The low `w` bytes of `n`, least significant first. -/
def leBytes : Nat → Nat → Bytes
  | 0, _ => []
  | w + 1, n => UInt8.ofNat (n % 256) :: leBytes w (n / 256)

/-- The low `w` bytes of `n`, most significant first. -/
def beBytes (w n : Nat) : Bytes := (leBytes w n).reverse

@[simp] theorem length_leBytes (w n : Nat) : (leBytes w n).length = w := by
  induction w generalizing n with
  | zero => rfl
  | succ w ih => simp [leBytes, ih]

@[simp] theorem length_beBytes (w n : Nat) : (beBytes w n).length = w := by
  simp [beBytes]

/-- A value below `256 ^ w` survives its `w`-byte little-endian encoding. -/
theorem leNat_leBytes {w n : Nat} (h : n < 256 ^ w) : leNat (leBytes w n) = n := by
  induction w generalizing n with
  | zero =>
    have : n = 0 := by simpa using h
    simp [leBytes, leNat, this]
  | succ w ih =>
    have hq : n / 256 < 256 ^ w := by
      rw [pow_succ] at h
      exact Nat.div_lt_of_lt_mul (by rwa [Nat.mul_comm] at h)
    rw [leBytes, leNat, ih hq, UInt8.toNat_ofNat']
    omega

theorem beNat_beBytes {w n : Nat} (h : n < 256 ^ w) : beNat (beBytes w n) = n := by
  rw [beNat, beBytes, List.reverse_reverse, leNat_leBytes h]

theorem leNat_lt (bs : Bytes) : leNat bs < 256 ^ bs.length := by
  induction bs with
  | nil => simp [leNat]
  | cons b bs ih =>
    have hb : b.toNat < 256 := b.toNat_lt
    rw [leNat, List.length_cons, pow_succ]
    omega

/-- Re-encoding the number a byte string denotes, at the string's own width,
gives the string back. -/
theorem leBytes_leNat (bs : Bytes) : leBytes bs.length (leNat bs) = bs := by
  induction bs with
  | nil => rfl
  | cons b bs ih =>
    have hb : b.toNat < 256 := b.toNat_lt
    have hmod : (b.toNat + 256 * leNat bs) % 256 = b.toNat := by omega
    have hdiv : (b.toNat + 256 * leNat bs) / 256 = leNat bs := by omega
    rw [List.length_cons, leBytes, leNat, hmod, hdiv, ih, UInt8.ofNat_toNat]

theorem beNat_lt (bs : Bytes) : beNat bs < 256 ^ bs.length := by
  have := leNat_lt bs.reverse
  rwa [List.length_reverse] at this

theorem beBytes_beNat (bs : Bytes) : beBytes bs.length (beNat bs) = bs := by
  have := leBytes_leNat bs.reverse
  rw [List.length_reverse] at this
  rw [beBytes, beNat, this, List.reverse_reverse]

theorem leBytes_pow_mul (k w n : Nat) :
    leBytes (w + k) (256 ^ k * n) = List.replicate k 0 ++ leBytes w n := by
  induction k with
  | zero => simp
  | succ k ih =>
    have hmod : 256 ^ (k + 1) * n % 256 = 0 := by
      rw [pow_succ', Nat.mul_assoc, Nat.mul_mod_right]
    have hdiv : 256 ^ (k + 1) * n / 256 = 256 ^ k * n := by
      rw [pow_succ', Nat.mul_assoc, Nat.mul_div_cancel_left _ (by omega)]
    rw [← Nat.add_assoc, leBytes, hmod, hdiv, ih, List.replicate_succ, List.cons_append]
    rfl

/-- Shifting a number left by whole bytes appends zero bytes. -/
theorem beBytes_pow_mul (k w n : Nat) :
    beBytes (w + k) (256 ^ k * n) = beBytes w n ++ List.replicate k 0 := by
  rw [beBytes, leBytes_pow_mul, List.reverse_append, List.reverse_replicate, beBytes]

-- ---------------------------------------------------------------------------
-- Minimal width
-- ---------------------------------------------------------------------------

/-- The number of binary digits of `n`; zero has none. -/
def bitLength (n : Nat) : Nat := if n = 0 then 0 else n.log2 + 1

/-- The number of bytes the minimal encoding of `n` has; zero needs none. -/
def byteLength (n : Nat) : Nat := (bitLength n + 7) / 8

/-- The minimal big-endian encoding. -/
def minBytes (n : Nat) : Bytes := beBytes (byteLength n) n

theorem bitLength_le_iff {n k : Nat} : bitLength n ≤ k ↔ n < 2 ^ k := by
  unfold bitLength
  split
  · next h => simp [h]
  · next h =>
    rw [Nat.add_one_le_iff]
    exact Nat.log2_lt h

theorem byteLength_le_iff {n k : Nat} : byteLength n ≤ k ↔ n < 256 ^ k := by
  have hpow : (256 : Nat) ^ k = 2 ^ (8 * k) := by rw [pow_mul]; rfl
  rw [hpow, ← bitLength_le_iff]
  unfold byteLength
  omega

theorem lt_pow_byteLength (n : Nat) : n < 256 ^ byteLength n :=
  byteLength_le_iff.mp le_rfl

theorem byteLength_pos {n : Nat} (h : 0 < n) : 0 < byteLength n := by
  by_contra hz
  have := byteLength_le_iff.mp (Nat.le_of_not_lt hz)
  simp at this
  omega

theorem byteLength_mono {m n : Nat} (h : m ≤ n) : byteLength m ≤ byteLength n :=
  byteLength_le_iff.mpr (lt_of_le_of_lt h (lt_pow_byteLength n))

/-- The numbers of one byte. -/
theorem minBytes_byte {n : Nat} (hpos : 0 < n) (h : n < 256) : minBytes n = [UInt8.ofNat n] := by
  have hone : byteLength n = 1 :=
    le_antisymm (byteLength_le_iff.mpr (by simpa using h)) (byteLength_pos hpos)
  rw [minBytes, hone]
  simp [beBytes, leBytes, Nat.mod_eq_of_lt h]

@[simp] theorem length_minBytes (n : Nat) : (minBytes n).length = byteLength n :=
  length_beBytes ..

theorem beNat_minBytes (n : Nat) : beNat (minBytes n) = n :=
  beNat_beBytes (lt_pow_byteLength n)

theorem minBytes_injective : Function.Injective minBytes := by
  intro m n h
  rw [← beNat_minBytes m, h, beNat_minBytes]

theorem leNat_append (xs ys : Bytes) : leNat (xs ++ ys) = leNat xs + 256 ^ xs.length * leNat ys := by
  induction xs with
  | nil => simp [leNat]
  | cons x xs ih =>
    rw [List.cons_append, leNat, ih, leNat, List.length_cons, pow_succ]
    ring

theorem beNat_cons (b : UInt8) (bs : Bytes) :
    beNat (b :: bs) = beNat bs + 256 ^ bs.length * b.toNat := by
  rw [beNat, List.reverse_cons, leNat_append, List.length_reverse]
  simp [leNat, beNat]

/-- A byte string without a leading zero is the minimal encoding of its number. -/
theorem minBytes_beNat {bs : Bytes} (h : bs.head? ≠ some 0) : minBytes (beNat bs) = bs := by
  suffices hlength : byteLength (beNat bs) = bs.length by
    rw [minBytes, hlength, beBytes_beNat]
  refine le_antisymm (byteLength_le_iff.mpr (beNat_lt bs)) ?_
  cases bs with
  | nil => exact Nat.zero_le _
  | cons b bs =>
    have hb : b.toNat ≠ 0 := fun hzero => h (congrArg some (UInt8.toNat_inj.mp hzero))
    have hge : 256 ^ bs.length ≤ beNat (b :: bs) := by
      rw [beNat_cons]
      exact le_add_left (Nat.le_mul_of_pos_right _ (Nat.pos_of_ne_zero hb))
    by_contra hlt
    have := byteLength_le_iff.mp (Nat.le_of_lt_succ (Nat.lt_of_not_ge hlt))
    omega

-- ---------------------------------------------------------------------------
-- Bits
-- ---------------------------------------------------------------------------

/-- Bit `i` of a little-endian number is bit `i % 8` of byte `i / 8`. -/
theorem testBit_leNat (bs : Bytes) (i : Nat) :
    (leNat bs).testBit i = (bs.getD (i / 8) 0).toNat.testBit (i % 8) := by
  induction bs generalizing i with
  | nil => simp [leNat]
  | cons b bs ih =>
    have hb : b.toNat < 2 ^ 8 := b.toNat_lt
    have hshape : leNat (b :: bs) = 2 ^ 8 * leNat bs + b.toNat := by
      rw [leNat]; ring
    rw [hshape, Nat.testBit_two_pow_mul_add _ hb]
    split
    · next hi =>
      rw [Nat.div_eq_of_lt hi, Nat.mod_eq_of_lt hi, List.getD_cons_zero]
    · next hi =>
      have hdiv : i / 8 = (i - 8) / 8 + 1 := by omega
      have hmod : i % 8 = (i - 8) % 8 := by omega
      rw [ih, hdiv, hmod, List.getD_cons_succ]

/-- Bit `i` of a big-endian number is bit `i % 8` of the byte `i / 8` places
from the end. -/
theorem testBit_beNat {bs : Bytes} {i : Nat} (hi : i < 8 * bs.length) :
    (beNat bs).testBit i =
      (bs.getD (bs.length - 1 - i / 8) 0).toNat.testBit (i % 8) := by
  have hlt : i / 8 < bs.length := by omega
  rw [beNat, testBit_leNat]
  congr 2
  rw [List.getD_eq_getElem?_getD, List.getD_eq_getElem?_getD, List.getElem?_reverse hlt]

end Endian
