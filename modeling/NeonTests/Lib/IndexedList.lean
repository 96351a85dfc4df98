import Mathlib.Data.List.Basic

/-!
# Indexed lists — lists that know where their elements are

`pos` says at which place an element stands, so that it can be taken out without a
search: the last element takes its place.

* `Indexed` — `pos` is right about a list; then no element is in it twice;
* `Indexed.concat`, `Indexed.swapRemove` — what keeps it right;
* `mem_swapRemove` — the others stay.
-/

namespace IndexedList

variable {α : Type} {pos pos' : α → Nat} {xs : List α} {x y last : α} {i : Nat}

def Indexed (pos : α → Nat) (xs : List α) : Prop := ∀ i x, xs[i]? = some x → pos x = i

/-- The element at `i` goes, and the last element takes its place. -/
def swapRemove (i : Nat) (xs : List α) : List α :=
  match xs.getLast? with
  | some last => (xs.set i last).dropLast
  | none => []

theorem indexed_nil (pos : α → Nat) : Indexed pos [] := by simp [Indexed]

theorem Indexed.getElem?_pos (h : Indexed pos xs) (hx : x ∈ xs) : xs[pos x]? = some x := by
  obtain ⟨i, hi⟩ := List.mem_iff_getElem?.mp hx
  rwa [h i x hi]

theorem Indexed.nodup (h : Indexed pos xs) : xs.Nodup := by
  unfold List.Nodup
  rw [List.pairwise_iff_getElem]
  intro i j hi hj hij heq
  have hi' := h i _ (List.getElem?_eq_getElem hi)
  have hj' := h j _ (List.getElem?_eq_getElem hj)
  rw [heq] at hi'
  omega

theorem Indexed.concat (h : Indexed pos xs) (hx : pos' x = xs.length)
    (hrest : ∀ y ∈ xs, pos' y = pos y) : Indexed pos' (xs ++ [x]) := by
  intro i y hy
  rw [List.getElem?_append] at hy
  split at hy
  · rw [hrest y (List.mem_of_getElem? hy)]
    exact h i y hy
  · obtain ⟨hi, rfl⟩ : i - xs.length = 0 ∧ x = y := by
      simpa [List.getElem?_singleton] using hy
    omega

theorem getElem?_swapRemove (hlast : xs.getLast? = some last) (j : Nat) :
    (swapRemove i xs)[j]? =
      if j + 1 < xs.length then if i = j then some last else xs[j]? else none := by
  simp only [swapRemove, hlast, List.getElem?_dropLast, List.length_set, List.getElem?_set]
  grind

theorem length_swapRemove (hlast : xs.getLast? = some last) :
    (swapRemove i xs).length = xs.length - 1 := by
  simp [swapRemove, hlast]

/-- Taking out the last element moves none. -/
theorem swapRemove_last (h : i + 1 = xs.length) : swapRemove i xs = xs.dropLast := by
  obtain ⟨last, hlast⟩ : ∃ last, xs.getLast? = some last :=
    ⟨_, List.getLast?_eq_some_getLast (List.length_pos_iff.mp (by omega))⟩
  refine List.ext_getElem? fun j => ?_
  rw [getElem?_swapRemove hlast, List.getElem?_dropLast]
  grind

/-- Where the last element stands. -/
theorem Indexed.pos_last (h : Indexed pos xs) (hlast : xs.getLast? = some last) :
    pos last + 1 = xs.length := by
  have hne : xs ≠ [] := by
    rintro rfl
    cases hlast
  rw [List.getLast?_eq_getElem?] at hlast
  have := h _ _ hlast
  have := List.length_pos_iff.mpr hne
  omega

theorem mem_swapRemove (h : Indexed pos xs) (hx : xs[i]? = some x)
    (hlast : xs.getLast? = some last) : y ∈ swapRemove i xs ↔ y ∈ xs ∧ y ≠ x := by
  have hi := h i x hx
  have hend := h.pos_last hlast
  have hmem := List.mem_of_getLast? hlast
  rw [List.mem_iff_getElem?]
  constructor
  · rintro ⟨j, hj⟩
    rw [getElem?_swapRemove hlast] at hj
    split at hj
    · next hlt =>
      split at hj
      · next heq =>
        obtain rfl := Option.some.inj hj
        refine ⟨hmem, ?_⟩
        rintro rfl
        omega
      · next hne =>
        refine ⟨List.mem_of_getElem? hj, ?_⟩
        rintro rfl
        exact hne (hi.symm.trans (h j y hj))
    · cases hj
  · rintro ⟨hy, hne⟩
    have hj := h.getElem?_pos hy
    have hlt := (List.getElem?_eq_some_iff.mp hj).1
    have hneq : pos y ≠ i := by
      intro heq
      rw [heq, hx] at hj
      exact hne (Option.some.inj hj).symm
    by_cases hy' : pos y + 1 = xs.length
    -- the last element, found where `x` was
    · have hylast : y = last := by
        have := h.getElem?_pos hmem
        rw [show pos last = pos y by omega, hj] at this
        exact Option.some.inj this
      have hi' := (List.getElem?_eq_some_iff.mp hx).1
      refine ⟨i, ?_⟩
      rw [getElem?_swapRemove hlast, if_pos (by omega), if_pos rfl, hylast]
    · refine ⟨pos y, ?_⟩
      rw [getElem?_swapRemove hlast, if_pos (by omega), if_neg hneq.symm, hj]

theorem Indexed.swapRemove (h : Indexed pos xs) (hx : xs[i]? = some x)
    (hlast : xs.getLast? = some last) (hmoved : last ≠ x → pos' last = i)
    (hrest : ∀ y, y ≠ x → y ≠ last → pos' y = pos y) :
    Indexed pos' (swapRemove i xs) := by
  have hi := h i x hx
  have hend := h.pos_last hlast
  intro j y hj
  rw [getElem?_swapRemove hlast] at hj
  split at hj
  · next hlt =>
    split at hj
    · next heq =>
      obtain rfl := Option.some.inj hj
      refine (hmoved ?_).trans heq
      rintro rfl
      omega
    · next hne =>
      have hpos := h j y hj
      rw [hrest y, hpos]
      · rintro rfl
        omega
      · rintro rfl
        omega
  · cases hj

end IndexedList
