import Mathlib.Algebra.BigOperators.Group.List.Basic
import Mathlib.Algebra.GroupWithZero.Nat
import NeonTests.Lib.Fallible

/-!
# Batches — items that each change the value of their key

A batch works through a list of items and fails at the first that fails. Each item reads
and writes the value of one key only.

* `run_eq_ok` — a batch goes through exactly if for every key the items of that key go
  through one after another, and then it leaves what they leave;
* `fold_induction` — the invariant rule for one value, and `fold_eq_of_step` where the value
  is known after every part of the items;
* `fold_returns` — when they go through, from the room each of them needs.
-/

namespace Batch

open Fallible

variable {ε κ τ ν : Type}

-- ---------------------------------------------------------------------------
-- One value
-- ---------------------------------------------------------------------------

/-- All items change one value. -/
def fold (f : τ → ν → Except ε ν) : List τ → ν → Except ε ν
  | [], v => .ok v
  | t :: ts, v => do
    let v ← f t v
    fold f ts v

variable {f : τ → ν → Except ε ν} {t : τ} {ts : List τ} {v v' : ν}

theorem fold_cons_eq_ok :
    fold f (t :: ts) v = .ok v' ↔ ∃ mid, f t v = .ok mid ∧ fold f ts mid = .ok v' :=
  bind_eq_ok

/-- **Invariants.** What holds before any item, and after an item if it held before, holds
after all; it may speak of the items so far. -/
theorem fold_induction (I : List τ → ν → Prop) (hinit : I [] v)
    (hstep : ∀ past t v v', I past v → f t v = .ok v' → I (past ++ [t]) v')
    (h : fold f ts v = .ok v') : I ts v' := by
  suffices hall : ∀ past v, I past v → fold f ts v = .ok v' → I (past ++ ts) v' from
    hall [] v hinit h
  clear hinit h
  induction ts with
  | nil =>
    intro past v hI h
    cases h
    simpa using hI
  | cons t ts ih =>
    intro past v hI h
    obtain ⟨mid, hmid, h⟩ := fold_cons_eq_ok.mp h
    simpa using ih _ mid (hstep past t v mid hI hmid) h

/-- While there is an item left, not all are behind. -/
theorem length_past_lt {past rest : List τ} (h : ts = past ++ t :: rest) :
    past.length < ts.length := by
  rw [h, List.length_append, List.length_cons]
  omega

/-- **Known values.** If an item leads from the value after `past` to the value after one item
more, all items lead to the value after all. -/
theorem fold_eq_of_step (value : List τ → ν)
    (hstep : ∀ past t rest, ts = past ++ t :: rest →
      f t (value past) = .ok (value (past ++ [t]))) :
    fold f ts (value []) = .ok (value ts) := by
  suffices h : ∀ rest past, ts = past ++ rest → fold f rest (value past) = .ok (value ts) from
    h ts [] rfl
  intro rest
  induction rest with
  | nil =>
    intro past hts
    rw [hts, List.append_nil]
    rfl
  | cons t rest ih =>
    intro past hts
    rw [fold, hstep past t rest hts, ok_bind]
    exact ih (past ++ [t]) (by rw [hts, List.append_assoc]; rfl)

/-- **When they go through.** If a value with room for an item and for `x` more lets the item
through and has room for `x` afterwards, a value with room for all items lets all through. -/
theorem fold_returns {amount : τ → Nat} (Room : Nat → ν → Prop)
    (hstep : ∀ t x v, Room (amount t + x) v → ∃ mid, f t v = .ok mid ∧ Room x mid)
    (h : Room (ts.map amount).sum v) : ∃ v', fold f ts v = .ok v' := by
  induction ts generalizing v with
  | nil => exact ⟨v, rfl⟩
  | cons t ts ih =>
    rw [List.map_cons, List.sum_cons] at h
    obtain ⟨mid, hmid, hroom⟩ := hstep t _ v h
    obtain ⟨v', hv'⟩ := ih hroom
    exact ⟨v', fold_cons_eq_ok.mpr ⟨mid, hmid, hv'⟩⟩

-- ---------------------------------------------------------------------------
-- A value for every key
-- ---------------------------------------------------------------------------

variable [DecidableEq κ]

def run (key : τ → κ) (f : τ → ν → Except ε ν) : List τ → (κ → ν) → Except ε (κ → ν)
  | [], m => .ok m
  | t :: ts, m => do
    let v ← f t (m (key t))
    run key f ts (Function.update m (key t) v)

variable {key : τ → κ}

/-- The items of one key, in order. -/
def itemsOf (key : τ → κ) (ts : List τ) (k : κ) : List τ := ts.filter fun t => key t = k

theorem itemsOf_cons_self (key : τ → κ) (t : τ) (ts : List τ) :
    itemsOf key (t :: ts) (key t) = t :: itemsOf key ts (key t) :=
  List.filter_cons_of_pos (decide_eq_true rfl)

theorem itemsOf_cons_of_ne {k : κ} (h : key t ≠ k) (ts : List τ) :
    itemsOf key (t :: ts) k = itemsOf key ts k :=
  List.filter_cons_of_neg (by simpa using h)

/-- **Key by key.** -/
theorem run_eq_ok {m m' : κ → ν} :
    run key f ts m = .ok m' ↔ ∀ k, fold f (itemsOf key ts k) (m k) = .ok (m' k) := by
  induction ts generalizing m with
  | nil =>
    rw [run, Except.ok.injEq]
    constructor
    · rintro rfl k
      rfl
    · intro h
      exact funext fun k => Except.ok.inj (h k)
  | cons t ts ih =>
    rw [run, bind_eq_ok]
    constructor
    · rintro ⟨v, hv, h⟩ k
      have hk := ih.mp h k
      rcases eq_or_ne (key t) k with rfl | hne
      · rw [Function.update_self] at hk
        rw [itemsOf_cons_self]
        exact fold_cons_eq_ok.mpr ⟨v, hv, hk⟩
      · rw [Function.update_of_ne hne.symm] at hk
        rwa [itemsOf_cons_of_ne hne]
    · intro h
      have hown := h (key t)
      rw [itemsOf_cons_self] at hown
      obtain ⟨v, hv, hown⟩ := fold_cons_eq_ok.mp hown
      refine ⟨v, hv, ih.mpr ?_⟩
      intro k
      rcases eq_or_ne (key t) k with rfl | hne
      · rwa [Function.update_self]
      · have hk := h k
        rw [itemsOf_cons_of_ne hne] at hk
        rwa [Function.update_of_ne hne.symm]

theorem run_returns {m : κ → ν} (h : ∀ k, ∃ v, fold f (itemsOf key ts k) (m k) = .ok v) :
    ∃ m', run key f ts m = .ok m' := by
  choose m' hm' using h
  exact ⟨m', run_eq_ok.mpr hm'⟩

end Batch
