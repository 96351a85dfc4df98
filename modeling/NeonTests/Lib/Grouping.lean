import NeonTests.Lib.Batch
import Mathlib.Data.List.Induction
import Mathlib.Data.List.Nodup
import Mathlib.Data.List.Perm.Basic

/-!
# Grouping — items under keys, in order of first appearance

A list of items is gone through once; a key is noted when it appears for the first time.

* `keysOf_concat_of_mem`, `keysOf_concat_of_notMem` — what one more item does to the keys;
* `nodup_keysOf`, `mem_keysOf` — each key once, and no other;
* `flatMap_itemsOf_perm` — the items of all keys together are all items.
-/

namespace Grouping

open Batch

variable {τ κ : Type} [DecidableEq κ] {key : τ → κ} {ts : List τ} {t : τ} {k : κ}

/-- The keys of the items, each where it appears first. -/
def keysOf (key : τ → κ) (ts : List τ) : List κ := (ts.map key).eraseDups

theorem mem_keysOf : k ∈ keysOf key ts ↔ ∃ t ∈ ts, key t = k := by
  rw [keysOf, List.mem_eraseDups, List.mem_map]

/-- A key that is there stays where it is. -/
theorem keysOf_concat_of_mem (h : key t ∈ keysOf key ts) :
    keysOf key (ts ++ [t]) = keysOf key ts := by
  unfold keysOf at h ⊢
  rw [List.mem_eraseDups] at h
  rw [List.map_append, List.map_singleton, List.eraseDups_append, List.removeAll,
    List.filter_cons_of_neg (by simpa using h), List.filter_nil, List.eraseDups_nil,
    List.append_nil]

/-- A new key comes last. -/
theorem keysOf_concat_of_notMem (h : key t ∉ keysOf key ts) :
    keysOf key (ts ++ [t]) = keysOf key ts ++ [key t] := by
  unfold keysOf at h ⊢
  rw [List.mem_eraseDups] at h
  rw [List.map_append, List.map_singleton, List.eraseDups_append, List.removeAll,
    List.filter_cons_of_pos (by simpa using h), List.filter_nil]
  rfl

theorem nodup_keysOf (key : τ → κ) (ts : List τ) : (keysOf key ts).Nodup := by
  induction ts using List.reverseRecOn with
  | nil => exact List.nodup_nil
  | append_singleton ts t ih =>
    by_cases h : key t ∈ keysOf key ts
    · rw [keysOf_concat_of_mem h]
      exact ih
    · rw [keysOf_concat_of_notMem h, ← List.concat_eq_append]
      exact List.Nodup.concat h ih

theorem length_keysOf_le (key : τ → κ) (ts : List τ) : (keysOf key ts).length ≤ ts.length := by
  induction ts using List.reverseRecOn with
  | nil => exact Nat.le_refl 0
  | append_singleton ts t ih =>
    rw [List.length_append, List.length_singleton]
    by_cases h : key t ∈ keysOf key ts
    · rw [keysOf_concat_of_mem h]
      omega
    · rw [keysOf_concat_of_notMem h, List.length_append, List.length_singleton]
      omega

-- ---------------------------------------------------------------------------
-- The items of a key
-- ---------------------------------------------------------------------------

theorem itemsOf_concat_self (key : τ → κ) (ts : List τ) (t : τ) :
    itemsOf key (ts ++ [t]) (key t) = itemsOf key ts (key t) ++ [t] := by
  rw [itemsOf, itemsOf, List.filter_append, List.filter_cons_of_pos (by simp), List.filter_nil]

theorem itemsOf_concat_of_ne (h : key t ≠ k) (ts : List τ) :
    itemsOf key (ts ++ [t]) k = itemsOf key ts k := by
  rw [itemsOf, itemsOf, List.filter_append, List.filter_cons_of_neg (by simpa using h),
    List.filter_nil, List.append_nil]

theorem length_itemsOf_le (key : τ → κ) (ts : List τ) (k : κ) :
    (itemsOf key ts k).length ≤ ts.length := List.length_filter_le ..

theorem itemsOf_eq_nil (h : k ∉ keysOf key ts) : itemsOf key ts k = [] := by
  rw [itemsOf, List.filter_eq_nil_iff]
  intro t ht
  simpa using fun hk => h (mem_keysOf.mpr ⟨t, ht, hk⟩)

/-- The items of some keys, key by key, are the items with one of these keys. -/
theorem flatMap_filter_perm {ks : List κ} (hks : ks.Nodup) :
    (ks.flatMap (itemsOf key ts)).Perm (ts.filter fun t => decide (key t ∈ ks)) := by
  induction ks with
  | nil => simp
  | cons k ks ih =>
    obtain ⟨hk, hks⟩ := List.nodup_cons.mp hks
    rw [List.flatMap_cons]
    have hsplit := List.filter_append_perm (fun t => decide (key t = k))
      (ts.filter fun t => decide (key t ∈ k :: ks))
    have hown : (ts.filter fun t => decide (key t ∈ k :: ks)).filter
        (fun t => decide (key t = k)) = itemsOf key ts k := by
      rw [List.filter_filter, itemsOf]
      refine List.filter_congr fun t _ => ?_
      by_cases h : key t = k <;> simp [h]
    have hrest : (ts.filter fun t => decide (key t ∈ k :: ks)).filter
        (fun t => !decide (key t = k)) = ts.filter fun t => decide (key t ∈ ks) := by
      rw [List.filter_filter]
      refine List.filter_congr fun t _ => ?_
      by_cases h : key t = k
      · simp [h, hk]
      · simp [h]
    rw [hown, hrest] at hsplit
    exact ((ih hks).append_left _).trans hsplit

/-- No item is lost and none is there twice. -/
theorem flatMap_itemsOf_perm (key : τ → κ) (ts : List τ) :
    ((keysOf key ts).flatMap (itemsOf key ts)).Perm ts := by
  refine (flatMap_filter_perm (nodup_keysOf key ts)).trans (List.Perm.of_eq ?_)
  rw [List.filter_eq_self]
  intro t ht
  exact decide_eq_true (mem_keysOf.mpr ⟨t, ht, rfl⟩)

omit [DecidableEq κ] in
/-- A list made key by key, after the value of one key changed. -/
theorem set_map {β : Type} {ks : List κ} (hks : ks.Nodup) {i : Nat} (hi : i < ks.length)
    (f g : κ → β) (hsame : ∀ k ∈ ks, k ≠ ks[i] → g k = f k) :
    (ks.map f).set i (g ks[i]) = ks.map g := by
  refine List.ext_getElem (by simp) fun j hj hj' => ?_
  rw [List.length_map] at hj'
  rw [List.getElem_set, List.getElem_map, List.getElem_map]
  split
  · next h =>
    subst h
    rfl
  · next h =>
    refine (hsame _ (List.getElem_mem hj') fun heq => h ?_).symm
    exact ((List.Nodup.getElem_inj_iff hks).mp heq).symm

end Grouping
