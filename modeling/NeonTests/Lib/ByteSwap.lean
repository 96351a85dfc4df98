import NeonTests.Lib.Endian

/-!
# Byte reversal by masks and shifts

Reversing the bytes of a machine word by swapping neighbouring groups of 8, 16,
32, ... bits. Each stage is a permutation of bit positions (`Moves`), stages
compose by composing the permutations, and a function whose permutation is the
byte mirror turns the big-endian reading of a byte string into its
little-endian one (`ReversesBytes.ofNat_beNat`).
-/

namespace ByteSwap

open Endian

variable {w : Nat}

/-- `f` brings bit `σ i` to position `i`. -/
def Moves (σ : Nat → Nat) (f : BitVec w → BitVec w) : Prop :=
  ∀ x i, i < w → (f x).getLsbD i = x.getLsbD (σ i)

/-- The position that a swap of neighbouring `s`-bit groups exchanges with `i`. -/
def partner (s i : Nat) : Nat := if i / s % 2 = 1 then i - s else i + s

/-- The mask keeps the odd-numbered groups of `s` bits. -/
def SelectsOdd (s : Nat) (m : BitVec w) : Prop :=
  ∀ i, i < w → m.getLsbD i = decide (i / s % 2 = 1)

/-- The mask keeps the even-numbered groups of `s` bits. -/
def SelectsEven (s : Nat) (m : BitVec w) : Prop :=
  ∀ i, i < w → m.getLsbD i = decide (i / s % 2 = 0)

theorem Moves.comp {σ τ : Nat → Nat} {f g : BitVec w → BitVec w} (hf : Moves σ f)
    (hg : Moves τ g) (hσ : ∀ i, i < w → σ i < w) :
    Moves (fun i => τ (σ i)) (fun x => f (g x)) := by
  intro x i hi
  rw [hf (g x) i hi, hg x (σ i) (hσ i hi)]

theorem Moves.congr {σ τ : Nat → Nat} {f : BitVec w → BitVec w} (hf : Moves σ f)
    (h : ∀ i, i < w → σ i = τ i) : Moves τ f := by
  intro x i hi
  rw [hf x i hi, h i hi]

-- ---------------------------------------------------------------------------
-- Stages
-- ---------------------------------------------------------------------------

private theorem le_of_odd_group {s i : Nat} (h : i / s % 2 = 1) : s ≤ i := by
  by_contra hlt
  rw [Nat.div_eq_of_lt (by omega)] at h
  omega

private theorem group_succ {s : Nat} (hs : 0 < s) (i : Nat) : (s + i) / s = i / s + 1 := by
  rw [Nat.add_comm, Nat.add_div_right i hs]

private theorem group_pred {s i : Nat} (hs : 0 < s) (h : s ≤ i) : (i - s) / s + 1 = i / s := by
  have := Nat.add_div_right (i - s) hs
  rw [Nat.sub_add_cancel h] at this
  exact this.symm

private theorem getLsbD_past {x : BitVec w} {i : Nat} (h : w ≤ i) : x.getLsbD i = false :=
  BitVec.getLsbD_of_ge x i h

/-- A stage that shifts first and masks the shifted words. -/
theorem moves_shift_mask {s : Nat} {odd even : BitVec w}
    (ho : SelectsOdd s odd) (he : SelectsEven s even) :
    Moves (partner s) fun x => ((x <<< s) &&& odd) ||| ((x >>> s) &&& even) := by
  intro x i hi
  rw [BitVec.getLsbD_or, BitVec.getLsbD_and, BitVec.getLsbD_and, BitVec.getLsbD_shiftLeft,
    BitVec.getLsbD_ushiftRight, ho i hi, he i hi, partner]
  by_cases hodd : i / s % 2 = 1
  · have := le_of_odd_group hodd
    simp [hodd, hi, Nat.not_lt.mpr this]
  · have heven : i / s % 2 = 0 := by omega
    simp [heven, Nat.add_comm]

/-- A stage that masks first and shifts the masked words. -/
theorem moves_mask_shift {s : Nat} (hs : 0 < s) {odd even : BitVec w}
    (ho : SelectsOdd s odd) (he : SelectsEven s even) :
    Moves (partner s) fun x => ((x &&& odd) >>> s) ||| ((x &&& even) <<< s) := by
  intro x i hi
  rw [BitVec.getLsbD_or, BitVec.getLsbD_ushiftRight, BitVec.getLsbD_shiftLeft,
    BitVec.getLsbD_and, BitVec.getLsbD_and, partner]
  have hup : (x.getLsbD (s + i) && odd.getLsbD (s + i)) =
      (x.getLsbD (s + i) && decide (i / s % 2 = 0)) := by
    rcases Nat.lt_or_ge (s + i) w with hlt | hge
    · rw [ho _ hlt, group_succ hs]
      congr 2
      simp only [eq_iff_iff]
      omega
    · rw [getLsbD_past hge, Bool.false_and, Bool.false_and]
  rw [hup, he (i - s) (by omega)]
  by_cases hodd : i / s % 2 = 1
  · have hle := le_of_odd_group hodd
    have heven : (i - s) / s % 2 = 0 := by
      have := group_pred hs hle
      omega
    simp [hodd, heven, hi, Nat.not_lt.mpr hle]
  · have heven : i / s % 2 = 0 := by omega
    have hdown : (decide (i < w) && !decide (i < s) &&
        (x.getLsbD (i - s) && decide ((i - s) / s % 2 = 0))) = false := by
      rcases Nat.lt_or_ge i s with hlt | hge
      · simp [hlt]
      · have := group_pred hs hge
        have hodd' : ¬ (i - s) / s % 2 = 0 := by omega
        simp [hodd']
    rw [hdown, heven]
    simp [Nat.add_comm]

/-- The last stage, which exchanges the two halves of the word. -/
theorem moves_halves {s : Nat} (hw : w = 2 * s) :
    Moves (partner s) fun x : BitVec w => (x <<< s) ||| (x >>> s) := by
  subst hw
  intro x i hi
  rw [BitVec.getLsbD_or, BitVec.getLsbD_shiftLeft, BitVec.getLsbD_ushiftRight, partner]
  rcases Nat.lt_or_ge i s with hlt | hge
  · rw [Nat.div_eq_of_lt hlt]
    simp [hlt, Nat.add_comm]
  · have hdiv : i / s = 1 := Nat.div_eq_of_lt_le (by omega) (by omega)
    rw [hdiv, getLsbD_past (x := x) (i := s + i) (by omega)]
    simp [hi, Nat.not_lt.mpr hge]

/-- The same with a mask on the half that is shifted down. -/
theorem moves_halves_masked {s : Nat} (hw : w = 2 * s) {low : BitVec w}
    (hl : SelectsEven s low) :
    Moves (partner s) fun x => (x <<< s) ||| ((x >>> s) &&& low) := by
  intro x i hi
  have hmask : ((x >>> s) &&& low).getLsbD i = (x >>> s).getLsbD i := by
    rw [BitVec.getLsbD_and, BitVec.getLsbD_ushiftRight, hl i hi]
    rcases Nat.lt_or_ge i s with hlt | hge
    · rw [Nat.div_eq_of_lt hlt]
      simp
    · rw [getLsbD_past (by omega), Bool.false_and]
  rw [← moves_halves hw x i hi]
  simp only [BitVec.getLsbD_or, hmask]

-- ---------------------------------------------------------------------------
-- Byte reversal
-- ---------------------------------------------------------------------------

/-- The position of a bit after the bytes of a `w`-bit word are reversed. -/
def mirror (w i : Nat) : Nat := w - 8 - 8 * (i / 8) + i % 8

/-- `f` reverses the order of the bytes and leaves each byte as it is. -/
def ReversesBytes (f : BitVec w → BitVec w) : Prop := Moves (mirror w) f

/-- Reversing the bytes of a big-endian reading gives the little-endian one. -/
theorem ReversesBytes.ofNat_beNat {f : BitVec w → BitVec w} (hf : ReversesBytes f) {bs : Bytes}
    (hw : w = 8 * bs.length) :
    f (BitVec.ofNat w (beNat bs)) = BitVec.ofNat w (leNat bs) := by
  subst hw
  apply BitVec.eq_of_getLsbD_eq
  intro i hi
  have hmirror : mirror (8 * bs.length) i < 8 * bs.length := by
    unfold mirror
    omega
  have hbyte : bs.length - 1 - mirror (8 * bs.length) i / 8 = i / 8 := by
    unfold mirror
    omega
  have hbit : mirror (8 * bs.length) i % 8 = i % 8 := by
    unfold mirror
    omega
  rw [hf _ i hi, BitVec.getLsbD_ofNat, BitVec.getLsbD_ofNat, testBit_beNat hmirror, testBit_leNat,
    hbyte, hbit]
  simp [hi, hmirror]

end ByteSwap
