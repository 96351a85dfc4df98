import Mathlib.Data.List.Sort
import Mathlib.Data.List.Nodup

/-!
# Rankings — the greatest of a list first

A stable descending sort by a key, as `ORDER BY ... DESC` and `sorted(reverse=True)` do it,
and what a prefix of it is: `Top n xs ys` says that `ys` are `n` greatest items of `xs`.

`top_take` gets it from any sorted rearrangement. Where one item is greater than all others,
it comes first, whatever the order of the rest (`ranked_eq_cons`).
-/

namespace Ranking

variable {α κ : Type} [LinearOrder κ] (key : α → κ)

/-- The greatest key first; items with equal keys stay in order. -/
def ranked (xs : List α) : List α := xs.insertionSort fun a b => key b ≤ key a

/-- `ys` are `n` greatest items of `xs`, or all of them if there are fewer, in order. -/
structure Top (n : Nat) (xs ys : List α) : Prop where
  length_eq : ys.length = min n xs.length
  sorted : ys.Pairwise fun a b => key b ≤ key a
  above : ∃ rest, (ys ++ rest).Perm xs ∧ ∀ y ∈ ys, ∀ z ∈ rest, key z ≤ key y

variable {key}

theorem ranked_perm (xs : List α) : (ranked key xs).Perm xs := List.perm_insertionSort _ xs

theorem pairwise_ranked (xs : List α) : (ranked key xs).Pairwise fun a b => key b ≤ key a := by
  have : Std.Total fun a b : α => key b ≤ key a := ⟨fun a b => le_total (key b) (key a)⟩
  have : IsTrans α fun a b => key b ≤ key a := ⟨fun _ _ _ hab hbc => le_trans hbc hab⟩
  exact List.pairwise_insertionSort _ xs

theorem mem_ranked {xs : List α} {x : α} : x ∈ ranked key xs ↔ x ∈ xs :=
  (ranked_perm xs).mem_iff

/-- A prefix of a sorted rearrangement. -/
theorem top_take {xs ys : List α} (hperm : ys.Perm xs)
    (hsorted : ys.Pairwise fun a b => key b ≤ key a) (n : Nat) : Top key n xs (ys.take n) where
  length_eq := by rw [List.length_take, hperm.length_eq]
  sorted := hsorted.sublist (List.take_sublist n ys)
  above := by
    refine ⟨ys.drop n, by rwa [List.take_append_drop], ?_⟩
    rw [← List.take_append_drop n ys] at hsorted
    exact (List.pairwise_append.mp hsorted).2.2

/-- In a sorted list, what comes from the first smaller key on is all that is smaller. -/
theorem dropWhile_eq_filter {xs : List α} (h : xs.Pairwise fun a b => key b ≤ key a) (k : κ) :
    xs.dropWhile (fun a => decide (k ≤ key a)) = xs.filter fun a => decide (key a < k) := by
  induction xs with
  | nil => rfl
  | cons x xs ih =>
    obtain ⟨hx, hxs⟩ := List.pairwise_cons.mp h
    by_cases hle : k ≤ key x
    · rw [List.dropWhile_cons_of_pos (by simpa using hle), ih hxs,
        List.filter_cons_of_neg (by simpa using hle)]
    · rw [List.dropWhile_cons_of_neg (by simpa using hle), List.filter_cons_of_pos
        (by simpa using hle), List.filter_eq_self.mpr]
      intro y hy
      exact decide_eq_true (lt_of_le_of_lt (hx y hy) (not_le.mp hle))

/-- The greatest item comes first, and the others are ranked behind it. -/
theorem ranked_eq_cons [DecidableEq α] {x : α} {xs : List α} (hmem : x ∈ xs)
    (hgreatest : ∀ y ∈ xs, y ≠ x → key y < key x) :
    ranked key xs = x :: ranked key (xs.erase x) := by
  induction xs with
  | nil => cases hmem
  | cons z xs ih =>
    by_cases heq : z = x
    · subst heq
      rw [List.erase_cons_head]
      refine List.insertionSort_cons_of_forall_rel _ fun y hy => ?_
      by_cases hy' : y = z
      · rw [hy']
      · exact (hgreatest y (List.mem_cons_of_mem z hy) hy').le
    · have hmem : x ∈ xs := (List.mem_cons.mp hmem).resolve_left (Ne.symm heq)
      have hrest := ih hmem fun y hy => hgreatest y (List.mem_cons_of_mem z hy)
      have hlower : ¬ key x ≤ key z := not_le.mpr (hgreatest z List.mem_cons_self heq)
      rw [List.erase_cons_tail (by simpa using heq), ranked, List.insertionSort_cons, ← ranked,
        hrest, List.orderedInsert_cons, if_neg hlower]
      rfl

end Ranking
