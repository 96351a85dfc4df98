import NeonTests.Lib.Fallible
import Mathlib.Tactic.Ring

/-!
# Solidity integers and reverts

Unsigned integers are bit vectors of their declared width. From compiler
version 0.8 on, arithmetic that leaves the width reverts: each `checked`
operation comes with the equivalence that says, over `Nat`, when it returns and
what.
-/

namespace Solidity

open Fallible

abbrev Uint8 := BitVec 8
abbrev Uint16 := BitVec 16
abbrev Uint32 := BitVec 32
abbrev Uint64 := BitVec 64
abbrev Uint128 := BitVec 128
abbrev Uint256 := BitVec 256

/-- A signed integer of `w` bits. -/
structure SInt (w : Nat) where
  val : Int
  lower : -2 ^ w ≤ 2 * val
  upper : 2 * val < 2 ^ w
  deriving DecidableEq

abbrev Sint32 := SInt 32
abbrev Sint64 := SInt 64
abbrev Sint128 := SInt 128

/-- The two's complement word of a signed integer. -/
def SInt.toBits {w : Nat} (x : SInt w) : BitVec w := BitVec.ofInt w x.val

/-- `intN(x)` of an unsigned word: the same bits, read as two's complement. -/
def SInt.ofBits {w : Nat} (x : BitVec w) : SInt w where
  val := x.toInt
  lower := BitVec.le_two_mul_toInt
  upper := BitVec.two_mul_toInt_lt

/-- How a call ends that does not return. -/
inductive Revert
  /-- `require(condition)` without a text, or an empty `revert()` -/
  | empty
  | message (text : String)
  | panic (code : Nat)
  deriving DecidableEq, Repr

def Revert.overflow : Revert := .panic 0x11
def Revert.divisionByZero : Revert := .panic 0x12
/-- A number that names no member of the enum it is converted to. -/
def Revert.enumConversion : Revert := .panic 0x21
/-- `pop` of an empty array. -/
def Revert.emptyArray : Revert := .panic 0x31
def Revert.outOfBounds : Revert := .panic 0x32

/-- `require(c, text)` -/
def require (c : Prop) [Decidable c] (text : String) : Except Revert Unit :=
  guard c (.message text)

variable {w : Nat}

def checkedAdd (a b : BitVec w) : Except Revert (BitVec w) :=
  if a.toNat + b.toNat < 2 ^ w then .ok (a + b) else .error .overflow

def checkedSub (a b : BitVec w) : Except Revert (BitVec w) :=
  if b.toNat ≤ a.toNat then .ok (a - b) else .error .overflow

def checkedMul (a b : BitVec w) : Except Revert (BitVec w) :=
  if a.toNat * b.toNat < 2 ^ w then .ok (a * b) else .error .overflow

def checkedDiv (a b : BitVec w) : Except Revert (BitVec w) :=
  if b = 0 then .error .divisionByZero else .ok (a / b)

def checkedMod (a b : BitVec w) : Except Revert (BitVec w) :=
  if b = 0 then .error .divisionByZero else .ok (a % b)

@[simp] theorem require_eq_ok {c : Prop} [Decidable c] {text : String} {u : Unit} :
    require c text = .ok u ↔ c := guard_eq_ok

theorem require_bind_eq_ok {α : Type} {c : Prop} [Decidable c] {text : String}
    {f : Unit → Except Revert α} {a : α} :
    (require c text >>= f) = .ok a ↔ c ∧ f () = .ok a := guard_bind_eq_ok

theorem checkedAdd_eq_ok {a b c : BitVec w} :
    checkedAdd a b = .ok c ↔ c.toNat = a.toNat + b.toNat := by
  have hc := c.isLt
  unfold checkedAdd
  split
  · next h =>
    rw [Except.ok.injEq, ← BitVec.toNat_inj, BitVec.toNat_add, Nat.mod_eq_of_lt h]
    exact eq_comm
  · next h =>
    simp only [reduceCtorEq, false_iff]
    omega

theorem checkedSub_eq_ok {a b c : BitVec w} :
    checkedSub a b = .ok c ↔ c.toNat + b.toNat = a.toNat := by
  have hc := c.isLt
  unfold checkedSub
  split
  · next h =>
    rw [Except.ok.injEq, ← BitVec.toNat_inj, BitVec.toNat_sub_of_le (BitVec.le_def.mpr h)]
    omega
  · next h =>
    simp only [reduceCtorEq, false_iff]
    omega

theorem checkedMul_eq_ok {a b c : BitVec w} :
    checkedMul a b = .ok c ↔ c.toNat = a.toNat * b.toNat := by
  have hc := c.isLt
  unfold checkedMul
  split
  · next h =>
    rw [Except.ok.injEq, ← BitVec.toNat_inj, BitVec.toNat_mul, Nat.mod_eq_of_lt h]
    exact eq_comm
  · next h =>
    simp only [reduceCtorEq, false_iff]
    omega

private theorem eq_zero_iff_toNat {b : BitVec w} : b = 0 ↔ b.toNat = 0 := by
  rw [← BitVec.toNat_inj]
  simp

theorem checkedDiv_eq_ok {a b c : BitVec w} :
    checkedDiv a b = .ok c ↔ 0 < b.toNat ∧ c.toNat = a.toNat / b.toNat := by
  unfold checkedDiv
  split
  · next h =>
    rw [eq_zero_iff_toNat] at h
    simp [h]
  · next h =>
    rw [eq_zero_iff_toNat] at h
    rw [Except.ok.injEq, ← BitVec.toNat_inj, BitVec.toNat_udiv]
    exact ⟨fun e => ⟨by omega, e.symm⟩, fun e => e.2.symm⟩

theorem checkedMod_eq_ok {a b c : BitVec w} :
    checkedMod a b = .ok c ↔ 0 < b.toNat ∧ c.toNat = a.toNat % b.toNat := by
  unfold checkedMod
  split
  · next h =>
    rw [eq_zero_iff_toNat] at h
    simp [h]
  · next h =>
    rw [eq_zero_iff_toNat] at h
    rw [Except.ok.injEq, ← BitVec.toNat_inj, BitVec.toNat_umod]
    exact ⟨fun e => ⟨by omega, e.symm⟩, fun e => e.2.symm⟩

/-- A number within the width is the value of an integer. -/
theorem exists_toNat {n : Nat} (h : n < 2 ^ w) : ∃ a : BitVec w, a.toNat = n :=
  ⟨BitVec.ofNat w n, by rw [BitVec.toNat_ofNat, Nat.mod_eq_of_lt h]⟩

/-- Widening a number keeps its value. -/
theorem toNat_setWidth_of_le {v : Nat} (h : w ≤ v) (a : BitVec w) :
    (a.setWidth v).toNat = a.toNat := by
  rw [BitVec.toNat_setWidth]
  exact Nat.mod_eq_of_lt (lt_of_lt_of_le a.isLt (Nat.pow_le_pow_right (by omega) h))

section Mappings

variable {κ ι : Type} [DecidableEq κ] [DecidableEq ι]

/-- The numbers of a mapping after one entry changed. -/
theorem toNat_update (f : κ → BitVec w) (a : κ) (x : BitVec w) :
    (fun b => (Function.update f a x b).toNat) =
      Function.update (fun b => (f b).toNat) a x.toNat :=
  funext fun b => Function.apply_update (fun _ => BitVec.toNat) f a x b

/-- The same for a mapping of mappings. -/
theorem toNat_update_update (f : κ → ι → BitVec w) (a : κ) (c : ι) (x : BitVec w) :
    (fun b d => (Function.update f a (Function.update (f a) c x) b d).toNat) =
      Function.update (fun b d => (f b d).toNat) a
        (Function.update (fun d => (f a d).toNat) c x.toNat) := by
  funext b
  rcases eq_or_ne b a with rfl | hne
  · simp only [Function.update_self]
    exact toNat_update (f b) c x
  · simp only [Function.update_of_ne hne]

end Mappings

@[ext] theorem SInt.ext {x y : SInt w} (h : x.val = y.val) : x = y := by
  cases x
  cases y
  simpa using h

/-- A signed integer survives the trip through its word. -/
@[simp] theorem SInt.ofBits_toBits (x : SInt w) : SInt.ofBits x.toBits = x := by
  apply SInt.ext
  have hlo := x.lower
  have hhi := x.upper
  change (BitVec.ofInt w x.val).toInt = x.val
  rw [BitVec.toInt_ofInt]
  exact Int.bmod_eq_of_le_mul_two (by push_cast; omega) (by push_cast; omega)

end Solidity
