import Mathlib.Logic.Basic

/-!
# Scripts — computations that fail and leave their effects behind

A script runs over a world `σ` and may fail with an `ε`. What it had done to the
world before it failed stays done: that is the point of the model, and the
difference to a transaction. `exec_bind` runs two scripts one after the other.

`Triple` is the logic over them, with one postcondition for a script that
returns and one for the world a failed one leaves.
-/

namespace Scripts

variable {ε σ α β : Type}

abbrev Script (ε σ α : Type) := ExceptT ε (StateM σ) α

/-- The outcome, and the world the script leaves. -/
def exec (x : Script ε σ α) (s : σ) : Except ε α × σ := x.run.run s

/-- One step against the world, as a script. -/
def step (f : σ → Except ε α × σ) : Script ε σ α := f

@[simp] theorem exec_step (f : σ → Except ε α × σ) (s : σ) : exec (step f) s = f s := rfl

@[simp] theorem exec_pure (a : α) (s : σ) : exec (pure a : Script ε σ α) s = (.ok a, s) := rfl

/-- A computation that does not touch the world. -/
@[simp] theorem exec_liftM (y : Except ε α) (s : σ) :
    exec (liftM y : Script ε σ α) s = (y, s) := rfl

theorem exec_pure_eq_ok {a b : α} {s s' : σ} :
    exec (pure a : Script ε σ α) s = (.ok b, s') ↔ a = b ∧ s' = s := by
  rw [exec_pure, Prod.mk.injEq, Except.ok.injEq, eq_comm (a := s)]

theorem exec_bind (x : Script ε σ α) (f : α → Script ε σ β) (s : σ) :
    exec (x >>= f) s = match exec x s with
      | (.ok a, s') => exec (f a) s'
      | (.error e, s') => (.error e, s') := by
  show _ = match x s with
    | (.ok a, s') => exec (f a) s'
    | (.error e, s') => (.error e, s')
  show ExceptT.bindCont f (x s).1 (x s).2 = _
  rcases x s with ⟨_ | a, s'⟩ <;> rfl

/-- What returns has returned in both its parts. -/
theorem exec_bind_eq_ok {x : Script ε σ α} {f : α → Script ε σ β} {s s'' : σ} {b : β} :
    exec (x >>= f) s = (.ok b, s'') ↔
      ∃ a s', exec x s = (.ok a, s') ∧ exec (f a) s' = (.ok b, s'') := by
  rw [exec_bind]
  rcases exec x s with ⟨e | a, s'⟩
  · exact ⟨nofun, fun ⟨_, _, h, _⟩ => absurd h nofun⟩
  · constructor
    · exact fun h => ⟨a, s', rfl, h⟩
    · rintro ⟨_, _, ⟨rfl, rfl⟩, h⟩
      exact h

-- ---------------------------------------------------------------------------
-- Reading, writing, failing
-- ---------------------------------------------------------------------------

def read (f : σ → α) : Script ε σ α := step fun s => (.ok (f s), s)

@[simp] theorem exec_read (f : σ → α) (s : σ) :
    exec (read f : Script ε σ α) s = (.ok (f s), s) := rfl

def write (f : σ → σ) : Script ε σ Unit := step fun s => (.ok (), f s)

def fail (e : ε) : Script ε σ α := step fun s => (.error e, s)

def ensure (c : Prop) [Decidable c] (e : ε) : Script ε σ Unit := if c then pure () else fail e

theorem exec_fail_ne_ok {e : ε} {b : α} {s s' : σ} :
    exec (fail e : Script ε σ α) s ≠ (.ok b, s') := nofun

-- ---------------------------------------------------------------------------
-- Triples
-- ---------------------------------------------------------------------------

/-- `post` of what a run returned, `bad` of what a failed one left. -/
def Ends (post : α → σ → Prop) (bad : σ → Prop) : Except ε α × σ → Prop
  | (.ok a, s) => post a s
  | (.error _, s) => bad s

/-- From every world in `pre` the script ends in `post` if it returns and in
`bad` if it fails. -/
def Triple (pre : σ → Prop) (x : Script ε σ α) (post : α → σ → Prop) (bad : σ → Prop) : Prop :=
  ∀ s, pre s → Ends post bad (exec x s)

section Triples

variable {pre : σ → Prop} {bad : σ → Prop}

theorem Triple.pure {post : α → σ → Prop} {a : α} (h : ∀ s, pre s → post a s) :
    Triple pre (Pure.pure a : Script ε σ α) post bad := h

theorem Triple.bind {x : Script ε σ α} {f : α → Script ε σ β} {post : β → σ → Prop}
    (mid : α → σ → Prop) (hx : Triple pre x mid bad)
    (hf : ∀ a, Triple (mid a) (f a) post bad) : Triple pre (x >>= f) post bad := by
  intro s hs
  have hone := hx s hs
  rw [exec_bind]
  generalize exec x s = out at hone ⊢
  rcases out with ⟨e | a, s'⟩
  · exact hone
  · exact hf a s' hone

theorem Triple.conseq {x : Script ε σ α} {pre' bad' : σ → Prop} {post post' : α → σ → Prop}
    (hx : Triple pre' x post' bad') (hpre : ∀ s, pre s → pre' s)
    (hpost : ∀ a s, post' a s → post a s) (hbad : ∀ s, bad' s → bad s) :
    Triple pre x post bad := by
  intro s hs
  have hone := hx s (hpre s hs)
  generalize exec x s = out at hone ⊢
  rcases out with ⟨e | a, s'⟩
  · exact hbad s' hone
  · exact hpost a s' hone

theorem Triple.trivial {x : Script ε σ α} : Triple pre x (fun _ _ => True) (fun _ => True) := by
  intro s _
  generalize exec x s = out
  rcases out with ⟨e | a, s'⟩ <;> exact True.intro

/-- Two specifications of one script. -/
theorem Triple.and {x : Script ε σ α} {pre' bad' : σ → Prop} {post post' : α → σ → Prop}
    (hx : Triple pre x post bad) (hx' : Triple pre' x post' bad') :
    Triple (fun s => pre s ∧ pre' s) x (fun a s => post a s ∧ post' a s)
      (fun s => bad s ∧ bad' s) := by
  rintro s ⟨hs, hs'⟩
  have hone := hx s hs
  have htwo := hx' s hs'
  generalize exec x s = out at hone htwo ⊢
  rcases out with ⟨e | a, s'⟩
  · exact ⟨hone, htwo⟩
  · exact ⟨hone, htwo⟩

theorem Triple.read {f : σ → α} {post : α → σ → Prop} (h : ∀ s, pre s → post (f s) s) :
    Triple pre (read f : Script ε σ α) post bad := h

theorem Triple.write {f : σ → σ} {post : Unit → σ → Prop} (h : ∀ s, pre s → post () (f s)) :
    Triple pre (write f : Script ε σ Unit) post bad := h

theorem Triple.fail {post : α → σ → Prop} {e : ε} (h : ∀ s, pre s → bad s) :
    Triple pre (fail e : Script ε σ α) post bad := h

theorem Triple.ite {c : Prop} [Decidable c] {x y : Script ε σ α} {post : α → σ → Prop}
    (hx : c → Triple pre x post bad) (hy : ¬ c → Triple pre y post bad) :
    Triple pre (if c then x else y) post bad := by
  split
  · next h => exact hx h
  · next h => exact hy h

/-- Go on under `c`, or fail. -/
theorem Triple.ensure {c : Prop} [Decidable c] {e : ε} (hbad : ∀ s, pre s → bad s) :
    Triple pre (ensure c e : Script ε σ Unit) (fun _ s => pre s ∧ c) bad :=
  Triple.ite (fun hc => Triple.pure fun _ hs => ⟨hs, hc⟩) (fun _ => Triple.fail hbad)

theorem Triple.ensure_of {c : Prop} [Decidable c] {e : ε} (h : ∀ s, pre s → c) :
    Triple pre (Scripts.ensure c e : Script ε σ Unit) (fun _ => pre) bad :=
  Triple.ite (fun _ => Triple.pure fun _ hs => hs) (fun hc => fun s hs => (hc (h s hs)).elim)

/-- What a run that returned ends in. -/
theorem Triple.ok {x : Script ε σ α} {post : α → σ → Prop} (hx : Triple pre x post bad)
    {s s' : σ} {a : α} (hs : pre s) (hrun : exec x s = (.ok a, s')) : post a s' := by
  have hends := hx s hs
  rwa [hrun] at hends

/-- A script that cannot fail returns. -/
theorem Triple.returns {x : Script ε σ α} {post : α → σ → Prop}
    (hx : Triple pre x post (fun _ => False)) {s : σ} (hs : pre s) :
    ∃ a s', exec x s = (.ok a, s') ∧ post a s' := by
  have hends := hx s hs
  generalize exec x s = out at hends ⊢
  rcases out with ⟨e | a, s'⟩
  · exact hends.elim
  · exact ⟨a, s', rfl, hends⟩

end Triples

end Scripts
