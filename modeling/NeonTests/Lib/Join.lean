import NeonTests.Lib.Dict

/-!
# Joins — rows with the item their key refers to

A list of rows, each looked up by its key among a list of items. Row by row or item by item,
the pairs are the same: `join_perm`.
-/

namespace Join

open Dict

variable {α β δ κ υ : Type}

/-- Two partial functions of which at most one is defined, tried one after the other. -/
theorem filterMap_or_perm {g h : α → Option β} (hone : ∀ x, g x = none ∨ h x = none)
    (xs : List α) :
    (xs.filterMap fun x => (g x).or (h x)).Perm (xs.filterMap g ++ xs.filterMap h) := by
  induction xs with
  | nil => exact .nil
  | cons x xs ih =>
    rcases hone x with hg | hh
    · simp only [List.filterMap_cons, hg, Option.none_or]
      cases h x with
      | none => exact ih
      | some b => exact (ih.cons b).trans List.perm_middle.symm
    · simp only [List.filterMap_cons, hh, Option.or_none]
      cases g x with
      | none => exact ih
      | some b => exact ih.cons b

variable [DecidableEq κ]

/-- **Join.** The rows with an item, item by item. -/
theorem join_perm (key : δ → κ) (f : υ → δ → β) {items : List (κ × υ)}
    (hkeys : (items.map Prod.fst).Nodup) (rows : List δ) :
    (rows.filterMap fun d => (lookup (key d) items).map fun v => f v d).Perm
      (items.flatMap fun item => (rows.filter fun d => key d = item.1).map (f item.2)) := by
  induction items with
  | nil => simp [lookup]
  | cons item items ih =>
    obtain ⟨hfresh, hkeys⟩ := List.nodup_cons.mp hkeys
    have hlookup : (fun d => (lookup (key d) (item :: items)).map fun v => f v d) =
        fun d => (if key d = item.1 then some (f item.2 d) else none).or
          ((lookup (key d) items).map fun v => f v d) := by
      funext d
      obtain ⟨k, v⟩ := item
      by_cases heq : k = key d
      · simp [lookup, heq]
      · simp [lookup, heq, Ne.symm heq]
    have hone : ∀ d, (if key d = item.1 then some (f item.2 d) else none) = none ∨
        ((lookup (key d) items).map fun v => f v d) = none := by
      intro d
      by_cases heq : key d = item.1
      · refine .inr ?_
        rw [lookup_eq_none.mpr (by rwa [heq])]
        rfl
      · exact .inl (if_neg heq)
    have hfront : (rows.filterMap fun d => if key d = item.1 then some (f item.2 d) else none) =
        (rows.filter fun d => key d = item.1).map (f item.2) := by
      rw [← List.filterMap_eq_map, List.filterMap_filter]
      simp
    rw [hlookup, List.flatMap_cons, ← hfront]
    exact (filterMap_or_perm hone rows).trans ((ih hkeys).append_left _)

end Join
