import Mathlib.Data.List.Forall2

/-!
# Computations that can fail

`Except`-valued functions and the rules that take a successful run apart. Every
modelled function that can raise or revert is written in this monad, and its
proofs peel the steps off with `bind_eq_ok` and `guard_eq_ok`.
-/

namespace Fallible

variable {ε α β : Type}

/-- A bind returns exactly when both halves do. -/
theorem bind_eq_ok {x : Except ε α} {f : α → Except ε β} {b : β} :
    (x >>= f) = .ok b ↔ ∃ a, x = .ok a ∧ f a = .ok b := by
  rcases x with e | a
  · exact ⟨nofun, fun ⟨_, h, _⟩ => nomatch h⟩
  · exact ⟨fun h => ⟨a, rfl, h⟩, fun ⟨_, rfl, h⟩ => h⟩

@[simp] theorem ok_bind (a : α) (f : α → Except ε β) : (Except.ok a >>= f) = f a := rfl

theorem error_bind (e : ε) (f : α → Except ε β) : (Except.error e >>= f) = .error e := rfl

@[simp] theorem pure_eq_ok {a b : α} : (pure a : Except ε α) = .ok b ↔ a = b :=
  Except.ok.injEq a b ▸ Iff.rfl

/-- Go on if `c` holds, fail with `e` otherwise. -/
def guard (c : Prop) [Decidable c] (e : ε) : Except ε Unit :=
  if c then .ok () else .error e

@[simp] theorem guard_eq_ok {c : Prop} [Decidable c] {e : ε} {u : Unit} :
    guard c e = .ok u ↔ c := by
  unfold guard
  split <;> simp [*]

theorem guard_of {c : Prop} [Decidable c] (h : c) (e : ε) : guard c e = .ok () :=
  if_pos h

/-- A check in front of the rest. -/
theorem check_bind_eq_ok {x : Except ε Unit} {f : Unit → Except ε α} {a : α} :
    (x >>= f) = .ok a ↔ x = .ok () ∧ f () = .ok a := by
  rw [bind_eq_ok]
  exact ⟨fun ⟨_, hx, hf⟩ => ⟨hx, hf⟩, fun ⟨hx, hf⟩ => ⟨(), hx, hf⟩⟩

theorem guard_bind_eq_ok {c : Prop} [Decidable c] {e : ε} {f : Unit → Except ε α} {a : α} :
    (guard c e >>= f) = .ok a ↔ c ∧ f () = .ok a := by
  rw [check_bind_eq_ok, guard_eq_ok]

/-- A loop returns if every round does; its results are the rounds' in order. -/
theorem mapM_eq_ok {f : α → Except ε β} {good : α → β → Prop} {xs : List α}
    (h : ∀ x ∈ xs, ∃ y, f x = .ok y ∧ good x y) :
    ∃ ys, xs.mapM f = .ok ys ∧ List.Forall₂ good xs ys := by
  induction xs with
  | nil => exact ⟨[], rfl, .nil⟩
  | cons x xs ih =>
    obtain ⟨y, hy, hgood⟩ := h x List.mem_cons_self
    obtain ⟨ys, hys, hall⟩ := ih fun x hx => h x (List.mem_cons_of_mem _ hx)
    refine ⟨y :: ys, ?_, .cons hgood hall⟩
    rw [List.mapM_cons, hy, ok_bind, hys, ok_bind]
    rfl

/-- Its rounds, taken apart again. -/
theorem forall₂_of_mapM {f : α → Except ε β} {xs : List α} {ys : List β}
    (h : xs.mapM f = .ok ys) : List.Forall₂ (fun x y => f x = .ok y) xs ys := by
  induction xs generalizing ys with
  | nil =>
    cases h
    exact .nil
  | cons x xs ih =>
    rw [List.mapM_cons] at h
    obtain ⟨y, hy, h⟩ := bind_eq_ok.mp h
    obtain ⟨ys, hys, h⟩ := bind_eq_ok.mp h
    cases pure_eq_ok.mp h
    exact .cons hy (ih hys)

theorem exists_related {R : α → β → Prop} {xs : List α} {ys : List β} (h : List.Forall₂ R xs ys)
    {x : α} (hx : x ∈ xs) : ∃ y ∈ ys, R x y := by
  induction h with
  | nil => cases hx
  | @cons a b xs ys hab _ ih =>
    rcases List.mem_cons.mp hx with rfl | hx
    · exact ⟨b, List.mem_cons_self, hab⟩
    · obtain ⟨y, hy, hxy⟩ := ih hx
      exact ⟨y, List.mem_cons_of_mem b hy, hxy⟩

theorem exists_related_right {R : α → β → Prop} {xs : List α} {ys : List β}
    (h : List.Forall₂ R xs ys) {y : β} (hy : y ∈ ys) : ∃ x ∈ xs, R x y := by
  have hflip : List.Forall₂ (flip R) ys xs := h.flip
  exact exists_related hflip hy

/-- A loop returns exactly if every round does. -/
theorem mapM_returns_iff {f : α → Except ε β} {xs : List α} :
    (∃ ys, xs.mapM f = .ok ys) ↔ ∀ x ∈ xs, ∃ y, f x = .ok y := by
  constructor
  · rintro ⟨ys, h⟩ x hx
    obtain ⟨y, -, hy⟩ := exists_related (forall₂_of_mapM h) hx
    exact ⟨y, hy⟩
  · intro h
    have hrounds : ∀ x ∈ xs, ∃ y, f x = .ok y ∧ True := by simpa using h
    obtain ⟨ys, hys, -⟩ := mapM_eq_ok hrounds
    exact ⟨ys, hys⟩

/-- A loop whose results are given. -/
theorem mapM_eq_ok_map_iff {f : α → Except ε β} {g : α → β} {xs : List α} :
    xs.mapM f = .ok (xs.map g) ↔ ∀ x ∈ xs, f x = .ok (g x) := by
  induction xs with
  | nil => exact ⟨fun _ x hx => (by cases hx), fun _ => rfl⟩
  | cons x xs ih =>
    rw [List.mapM_cons, List.map_cons, List.forall_mem_cons, ← ih]
    constructor
    · intro h
      obtain ⟨y, hy, h⟩ := bind_eq_ok.mp h
      obtain ⟨ys, hys, h⟩ := bind_eq_ok.mp h
      obtain ⟨rfl, rfl⟩ := List.cons.inj (pure_eq_ok.mp h)
      exact ⟨hy, hys⟩
    · rintro ⟨hx, hxs⟩
      rw [hx, ok_bind, hxs, ok_bind]
      rfl

/-- A loop for its checks alone. -/
theorem forM_eq_ok {f : α → Except ε Unit} {xs : List α} {u : Unit} :
    forM xs f = .ok u ↔ ∀ x ∈ xs, f x = .ok () := by
  induction xs with
  | nil => exact ⟨fun _ x hx => (by cases hx), fun _ => rfl⟩
  | cons x xs ih =>
    rw [List.forM_cons, check_bind_eq_ok, List.forall_mem_cons, ih]

/-- Reading back, one by one, what was written one by one. -/
theorem mapM_map_eq_ok {f : β → Except ε α} {g : α → β} (h : ∀ x, f (g x) = .ok x) (xs : List α) :
    (xs.map g).mapM f = .ok xs := by
  induction xs with
  | nil => rfl
  | cons x xs ih =>
    rw [List.map_cons, List.mapM_cons, h, ok_bind, ih, ok_bind]
    rfl

end Fallible
