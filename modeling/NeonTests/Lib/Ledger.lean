import Mathlib.Algebra.BigOperators.Group.Finset.Basic
import Mathlib.Algebra.Order.BigOperators.Group.Finset
import Mathlib.Data.Fintype.BigOperators

/-!
# Ledgers — amounts held by accounts

A ledger gives every account of a finite type an amount. `total_update` is the
accounting identity every change of one entry obeys; `total_transfer` and
`transfer_apply` are what a transfer between two accounts, equal or not, does
to the whole and to a single entry.
-/

namespace Ledger

variable {A : Type}

section Entries

variable [DecidableEq A]

/-- Take `amount` from one account and give it to another. -/
def transfer (f : A → Nat) (src dst : A) (amount : Nat) : A → Nat :=
  let debited := Function.update f src (f src - amount)
  Function.update debited dst (debited dst + amount)

variable {f : A → Nat} {src dst a : A} {amount : Nat}

@[simp] theorem transfer_self (h : amount ≤ f src) : transfer f src src amount src = f src := by
  simp only [transfer, Function.update_self]
  omega

theorem transfer_src (h : src ≠ dst) : transfer f src dst amount src = f src - amount := by
  simp only [transfer, Function.update_of_ne h, Function.update_self]

theorem transfer_dst (h : src ≠ dst) : transfer f src dst amount dst = f dst + amount := by
  simp only [transfer, Function.update_self, Function.update_of_ne h.symm]

/-- A single entry before and after a transfer, whichever of the two ends it is. -/
theorem transfer_apply (h : amount ≤ f src) (dst a : A) :
    transfer f src dst amount a + (if a = src then amount else 0) =
      f a + if a = dst then amount else 0 := by
  simp only [transfer, Function.update_apply]
  split_ifs <;> grind

end Entries

variable [Fintype A]

def total (f : A → Nat) : Nat := ∑ a, f a

theorem le_total (f : A → Nat) (a : A) : f a ≤ total f :=
  Finset.single_le_sum (fun _ _ => Nat.zero_le _) (Finset.mem_univ a)

theorem total_zero : total (fun _ : A => 0) = 0 := Finset.sum_const_zero

variable [DecidableEq A]

/-- The whole after one entry changed: the old entry out, the new one in. -/
theorem total_update (f : A → Nat) (a : A) (amount : Nat) :
    total (Function.update f a amount) + f a = total f + amount := by
  have hnew := Finset.add_sum_erase Finset.univ (Function.update f a amount) (Finset.mem_univ a)
  have hold := Finset.add_sum_erase Finset.univ f (Finset.mem_univ a)
  have hrest : ∑ x ∈ Finset.univ.erase a, Function.update f a amount x =
      ∑ x ∈ Finset.univ.erase a, f x := by
    refine Finset.sum_congr rfl ?_
    intro x hx
    exact Function.update_of_ne (Finset.ne_of_mem_erase hx) _ _
  rw [hrest, Function.update_self] at hnew
  show ∑ x, _ + f a = ∑ x, f x + amount
  omega

theorem total_transfer {f : A → Nat} {src : A} {amount : Nat} (h : amount ≤ f src) (dst : A) :
    total (transfer f src dst amount) = total f := by
  have hsrc := total_update f src (f src - amount)
  have hdst := total_update (Function.update f src (f src - amount)) dst
    (Function.update f src (f src - amount) dst + amount)
  show total (Function.update _ dst _) = _
  omega

end Ledger
