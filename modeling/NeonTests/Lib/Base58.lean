import Mathlib.Data.List.TakeWhile
import Mathlib.Data.Nat.Digits.Lemmas
import NeonTests.Lib.Endian

/-!
# Base58 — byte strings as text

The encoding of keys and signatures as text: the bytes as a number in base 58, and
one `1` for each zero byte in front, which the number would lose.

`decode_encode` — what was written is read back, zeros included.
-/

namespace Base58

open Endian

def alphabet : List Char :=
  "123456789ABCDEFGHJKLMNPQRSTUVWXYZabcdefghijkmnopqrstuvwxyz".toList

def digitChar (d : Nat) : Char := alphabet.getD d '1'

def charDigit (c : Char) : Option Nat := alphabet.idxOf? c

theorem charDigit_digitChar {d : Nat} (h : d < 58) : charDigit (digitChar d) = some d := by
  have hall : ∀ d < 58, charDigit (digitChar d) = some d := by decide
  exact hall d h

/-- The digits of a number, most significant first; none of zero. -/
def digits (n : Nat) : List Nat := (Nat.digits 58 n).reverse

def encode (bs : Bytes) : String :=
  String.ofList (List.replicate (bs.takeWhile (· = 0)).length '1' ++
    (digits (beNat bs)).map digitChar)

/-- A character outside the alphabet is refused. -/
def decode (s : String) : Option Bytes := do
  let zeros := s.toList.takeWhile (· = '1')
  let ds ← (s.toList.dropWhile (· = '1')).mapM charDigit
  return List.replicate zeros.length 0 ++ minBytes (Nat.ofDigits 58 ds.reverse)

theorem digits_lt {n d : Nat} (h : d ∈ digits n) : d < 58 :=
  Nat.digits_lt_base (by decide) (List.mem_reverse.mp h)

/-- No number is written with a zero in front. -/
theorem head_digits (n : Nat) : (digits n).head? ≠ some 0 := by
  intro h
  rw [digits, List.head?_reverse] at h
  have hne : n ≠ 0 := by
    rintro rfl
    simp at h
  rw [List.getLast?_eq_some_getLast (Nat.digits_ne_nil_iff_ne_zero.mpr hne)] at h
  exact Nat.getLast_digit_ne_zero 58 hne (Option.some.inj h)

theorem mapM_charDigit {ds : List Nat} (h : ∀ d ∈ ds, d < 58) :
    (ds.map digitChar).mapM charDigit = some ds := by
  induction ds with
  | nil => rfl
  | cons d ds ih =>
    rw [List.map_cons, List.mapM_cons, charDigit_digitChar (h d List.mem_cons_self),
      ih fun x hx => h x (List.mem_cons_of_mem _ hx)]
    rfl

section Front

variable {α : Type} {p : α → Bool} {xs ys : List α}

/-- A run of elements with `p`, and what comes behind it. -/
theorem takeWhile_append_of_head (hxs : ∀ x ∈ xs, p x = true) (hys : ∀ y ∈ ys.head?, p y = false) :
    (xs ++ ys).takeWhile p = xs ∧ (xs ++ ys).dropWhile p = ys := by
  rw [List.takeWhile_append_of_pos hxs, List.dropWhile_append_of_pos hxs]
  cases ys with
  | nil => simp
  | cons y ys => simp [hys y rfl]

end Front

theorem digitChar_ne {d : Nat} (h : d < 58) (hne : d ≠ 0) : digitChar d ≠ '1' := by
  intro heq
  have := charDigit_digitChar h
  rw [heq] at this
  exact hne (Option.some.inj this).symm

theorem beNat_zeros (k : Nat) (tail : Bytes) : beNat (List.replicate k 0 ++ tail) = beNat tail := by
  induction k with
  | zero => rfl
  | succ k ih =>
    rw [List.replicate_succ, List.cons_append, beNat_cons, ih]
    simp

/-- The zero bytes in front, and the others. -/
theorem split_zeros (bs : Bytes) : ∃ tail : Bytes,
    bs = List.replicate (bs.takeWhile (· = 0)).length 0 ++ tail ∧ tail.head? ≠ some 0 := by
  refine ⟨bs.dropWhile (· = 0), ?_, ?_⟩
  · have hzeros : bs.takeWhile (· = 0) = List.replicate (bs.takeWhile (· = 0)).length 0 := by
      refine List.eq_replicate_of_mem ?_
      intro b hb
      have hzero := List.mem_takeWhile_imp hb
      exact of_decide_eq_true hzero
    rw [← hzeros, List.takeWhile_append_dropWhile]
  · intro h
    have := List.head?_dropWhile_not (fun b : UInt8 => decide (b = 0)) bs
    rw [h] at this
    cases this

/-- **Round trip.** -/
theorem decode_encode (bs : Bytes) : decode (encode bs) = some bs := by
  obtain ⟨tail, hbs, htail⟩ := split_zeros bs
  have hnat : beNat bs = beNat tail := by
    rw [hbs]
    exact beNat_zeros _ tail
  have hds : ∀ c ∈ ((digits (beNat tail)).map digitChar).head?, decide (c = '1') = false := by
    intro c hc
    rw [List.head?_map] at hc
    obtain ⟨d, hd, rfl⟩ := Option.map_eq_some_iff.mp hc
    have hmem : d ∈ digits (beNat tail) := List.mem_of_mem_head? hd
    have hne : d ≠ 0 := by
      rintro rfl
      exact head_digits _ hd
    exact decide_eq_false (digitChar_ne (digits_lt hmem) hne)
  have hones : ∀ c ∈ List.replicate (bs.takeWhile (· = 0)).length '1', decide (c = '1') = true :=
    fun c hc => decide_eq_true (List.eq_of_mem_replicate hc)
  obtain ⟨htake, hdrop⟩ := takeWhile_append_of_head hones hds
  rw [encode, decode, hnat, String.toList_ofList, htake, hdrop,
    mapM_charDigit fun d hd => digits_lt hd]
  show some (List.replicate _ _ ++ minBytes (Nat.ofDigits 58 (digits _).reverse)) = some bs
  rw [List.length_replicate, digits, List.reverse_reverse, Nat.ofDigits_digits,
    minBytes_beNat htail, ← hbs]

example : encode [0, 0, 0x61, 0x62, 0x63] = "11ZiCa" := by decide +kernel

end Base58
