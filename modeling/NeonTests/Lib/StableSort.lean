import Mathlib.Data.List.Sort

/-!
# Stable sorts — the groups of equal keys

A stable ascending sort by a key, as `sorted(key=...)` and `sort_values` do it.

The items of one key keep their order (`group_sorted`). So where a run of keys `ks` is all
there is between two bounds, the sorted list has those items in one piece, group after group,
each as it was before (`sorted_eq_groups`).
-/

namespace StableSort

variable {α κ : Type} [LinearOrder κ] (key : α → κ)

/-- The least key first; items with equal keys stay in order. -/
def sorted (xs : List α) : List α := xs.insertionSort fun a b => key a ≤ key b

/-- The items of one key. -/
def group (xs : List α) (k : κ) : List α := xs.filter fun a => key a = k

theorem sorted_perm (xs : List α) : (sorted key xs).Perm xs := List.perm_insertionSort _ xs

variable {key}

theorem mem_group {xs : List α} {k : κ} {a : α} : a ∈ group key xs k ↔ a ∈ xs ∧ key a = k := by
  rw [group, List.mem_filter, decide_eq_true_iff]

theorem pairwise_sorted (xs : List α) : (sorted key xs).Pairwise fun a b => key a ≤ key b := by
  have : Std.Total fun a b : α => key a ≤ key b := ⟨fun a b => le_total (key a) (key b)⟩
  have : IsTrans α fun a b => key a ≤ key b := ⟨fun _ _ _ hab hbc => le_trans hab hbc⟩
  exact List.pairwise_insertionSort _ xs

/-- What is in order already is found again in that order. -/
theorem sublist_sorted {xs ys : List α} (hys : ys.Pairwise fun a b => key a ≤ key b)
    (h : ys.Sublist xs) : ys.Sublist (sorted key xs) := by
  have : Std.Total fun a b : α => key a ≤ key b := ⟨fun a b => le_total (key a) (key b)⟩
  have : IsTrans α fun a b => key a ≤ key b := ⟨fun _ _ _ hab hbc => le_trans hab hbc⟩
  exact List.sublist_insertionSort hys h

/-- Stability: the items of one key keep their order. -/
theorem group_sorted (xs : List α) (k : κ) : group key (sorted key xs) k = group key xs k := by
  have hequal : (group key xs k).Pairwise fun a b => key a ≤ key b := by
    refine List.pairwise_of_forall_mem_list fun a ha b hb => ?_
    rw [(mem_group.mp ha).2, (mem_group.mp hb).2]
  have hsub := (sublist_sorted hequal List.filter_sublist).filter fun a => decide (key a = k)
  rw [List.filter_eq_self.mpr fun a ha => decide_eq_true (mem_group.mp ha).2] at hsub
  exact (hsub.eq_of_length ((sorted_perm key xs).filter _).length_eq.symm).symm

/-- A sorted list, cut where a property of the lower keys ends. -/
theorem filter_append_filter {xs : List α} (h : xs.Pairwise fun a b => key a ≤ key b)
    {p : κ → Prop} [DecidablePred p] (hp : ∀ k l, k ≤ l → p l → p k) :
    (xs.filter fun a => p (key a)) ++ (xs.filter fun a => ¬ p (key a)) = xs := by
  induction xs with
  | nil => rfl
  | cons x xs ih =>
    obtain ⟨hx, hxs⟩ := List.pairwise_cons.mp h
    by_cases hlow : p (key x)
    · rw [List.filter_cons_of_pos (by simpa using hlow),
        List.filter_cons_of_neg (by simpa using hlow), List.cons_append, ih hxs]
    · -- nothing behind `x` is lower than `x`
      have hrest : ∀ a ∈ xs, ¬ p (key a) := fun a ha hlow' => hlow (hp _ _ (hx a ha) hlow')
      rw [List.filter_cons_of_neg (by simpa using hlow),
        List.filter_cons_of_pos (by simpa using hlow),
        List.filter_eq_nil_iff.mpr (by simpa using hrest),
        List.filter_eq_self.mpr (by simpa using hrest), List.nil_append]

/-- The items whose keys are in a rising list, group by group. -/
theorem filter_mem_eq_flatMap {xs : List α} (h : xs.Pairwise fun a b => key a ≤ key b)
    {ks : List κ} (hks : ks.Pairwise (· < ·)) :
    (xs.filter fun a => key a ∈ ks) = ks.flatMap (group key xs) := by
  induction ks with
  | nil => simp
  | cons k ks ih =>
    obtain ⟨hk, hks⟩ := List.pairwise_cons.mp hks
    have hcut := filter_append_filter (h.filter fun a => key a ∈ k :: ks)
      (fun (l m : κ) hlm (hm : m ≤ k) => hlm.trans hm)
    have hlow : ((xs.filter fun a => key a ∈ k :: ks).filter fun a => key a ≤ k) =
        group key xs k := by
      rw [List.filter_filter]
      refine List.filter_congr fun a _ => ?_
      rw [Bool.eq_iff_iff, Bool.and_eq_true, decide_eq_true_iff, decide_eq_true_iff,
        decide_eq_true_iff, List.mem_cons]
      constructor
      · rintro ⟨hle, heq | hmem⟩
        · exact heq
        · exact absurd (hk _ hmem) (not_lt.mpr hle)
      · exact fun heq => ⟨heq.le, .inl heq⟩
    have hhigh : ((xs.filter fun a => key a ∈ k :: ks).filter fun a => ¬ key a ≤ k) =
        xs.filter fun a => key a ∈ ks := by
      rw [List.filter_filter]
      refine List.filter_congr fun a _ => ?_
      rw [Bool.eq_iff_iff, Bool.and_eq_true, decide_eq_true_iff, decide_eq_true_iff,
        decide_eq_true_iff, List.mem_cons]
      constructor
      · rintro ⟨hgt, heq | hmem⟩
        · exact absurd heq.le hgt
        · exact hmem
      · exact fun hmem => ⟨not_le.mpr (hk _ hmem), .inr hmem⟩
    rw [← hcut, hlow, hhigh, ih hks, List.flatMap_cons]

variable (key) in
/-- The keys between two bounds, in one piece: what comes before is lower, what comes behind
is higher. -/
theorem sorted_eq_groups (xs : List α) {low high : κ} {ks : List κ} (hks : ks.Pairwise (· < ·))
    (hmem : ∀ k, k ∈ ks ↔ low ≤ k ∧ k ≤ high) :
    ∃ before behind, sorted key xs = before ++ ks.flatMap (group key xs) ++ behind ∧
      (∀ a ∈ before, key a < low) ∧ ∀ a ∈ behind, high < key a := by
  have hsorted : (sorted key xs).Pairwise fun a b => key a ≤ key b := pairwise_sorted xs
  have hcut := filter_append_filter hsorted
    fun (l m : κ) hlm (hm : m < low) => hlm.trans_lt hm
  have hcut' := filter_append_filter (hsorted.filter fun a => ¬ key a < low)
    fun (l m : κ) hlm (hm : m ≤ high) => hlm.trans hm
  have hmiddle : (((sorted key xs).filter fun a => ¬ key a < low).filter fun a => key a ≤ high) =
      ks.flatMap (group key xs) := by
    have hgroup : group key (sorted key xs) = group key xs := funext (group_sorted xs)
    rw [← hgroup, ← filter_mem_eq_flatMap hsorted hks, List.filter_filter]
    refine List.filter_congr fun a _ => ?_
    rw [Bool.eq_iff_iff, Bool.and_eq_true, decide_eq_true_iff, decide_eq_true_iff,
      decide_eq_true_iff, hmem, not_lt, and_comm]
  refine ⟨(sorted key xs).filter fun a => key a < low,
    ((sorted key xs).filter fun a => ¬ key a < low).filter fun a => ¬ key a ≤ high, ?_, ?_, ?_⟩
  · rw [List.append_assoc, ← hmiddle, hcut', hcut]
  · exact fun a ha => of_decide_eq_true (List.mem_filter.mp ha).2
  · exact fun a ha => not_le.mp (of_decide_eq_true (List.mem_filter.mp ha).2)

end StableSort
