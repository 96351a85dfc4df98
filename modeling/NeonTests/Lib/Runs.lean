import Mathlib.Data.List.Chain

/-!
# Runs — systems that take one labelled step after another

A system is a partial function `step`: `none` says that the event cannot happen in
the state. `run` is a whole schedule of events.

* `Steps` — every step of a run meets a condition on the state before it;
* `run_induction` — the invariant rule; the invariant may speak of the events so
  far, so that it can compare the state with what the schedule asked for;
* `states_induction` — the same for every state a run visits;
* `pairwise_states_iff` — a transitive relation between any earlier and any later
  state is a condition on the single steps.
-/

namespace Runs

variable {σ ε : Type}

section

variable (step : σ → ε → Option σ)

def run : σ → List ε → Option σ
  | s, [] => some s
  | s, e :: es => (step s e).bind fun s' => run s' es

/-- Condition `P` on each event and the state it happens in. -/
def Steps (P : σ → ε → Prop) : σ → List ε → Prop
  | _, [] => True
  | s, e :: es => P s e ∧ ∀ s' ∈ step s e, Steps P s' es

/-- The states a run visits. -/
def states : σ → List ε → List σ
  | s, [] => [s]
  | s, e :: es => s :: match step s e with
    | some s' => states s' es
    | none => []

end

variable {step : σ → ε → Option σ} {s s' : σ} {e : ε} {es : List ε}

@[simp] theorem run_nil : run step s [] = some s := rfl

theorem run_cons : run step s (e :: es) = some s' ↔
    ∃ t, step s e = some t ∧ run step t es = some s' :=
  Option.bind_eq_some_iff

theorem run_append (es fs : List ε) :
    run step s (es ++ fs) = (run step s es).bind fun s' => run step s' fs := by
  induction es generalizing s with
  | nil => rfl
  | cons e es ih =>
    rw [List.cons_append, run, run, Option.bind_assoc]
    exact congrArg _ (funext fun _ => ih)

theorem run_singleton : run step s [e] = some s' ↔ step s e = some s' := by
  rw [run_cons]
  simp

/-- **Invariants.** What holds before any event, and is kept by every step that
meets `P`, holds after every run whose steps all meet `P`. -/
theorem run_induction {P : σ → ε → Prop} (I : List ε → σ → Prop) (hinit : I [] s)
    (hstep : ∀ past t e t', I past t → P t e → step t e = some t' → I (past ++ [e]) t')
    (hsteps : Steps step P s es) (hrun : run step s es = some s') : I es s' := by
  suffices h : ∀ past t, I past t → Steps step P t es → run step t es = some s' →
      I (past ++ es) s' from h [] s hinit hsteps hrun
  clear hinit hsteps hrun
  induction es with
  | nil =>
    intro past t hI _ hrun
    cases hrun
    rwa [List.append_nil]
  | cons e es ih =>
    intro past t hI hsteps hrun
    obtain ⟨t', ht', hrun⟩ := run_cons.mp hrun
    rw [← List.singleton_append, ← List.append_assoc]
    exact ih _ t' (hstep past t e t' hI hsteps.1 ht') (hsteps.2 t' ht') hrun

theorem steps_cons_of_some {P : σ → ε → Prop} (h : step s e = some s') :
    Steps step P s (e :: es) ↔ P s e ∧ Steps step P s' es := by
  rw [Steps, h]
  simp

theorem steps_cons_of_none {P : σ → ε → Prop} (h : step s e = none) :
    Steps step P s (e :: es) ↔ P s e := by
  rw [Steps, h]
  simp

/-- Conditions that can be checked on a step can be checked along a run. -/
def decideSteps {P : σ → ε → Prop} [∀ s e, Decidable (P s e)] :
    (s : σ) → (es : List ε) → Decidable (Steps step P s es)
  | _, [] => .isTrue trivial
  | s, e :: es =>
    match h : step s e with
    | none => decidable_of_iff _ (steps_cons_of_none h).symm
    | some s' =>
      have := decideSteps (P := P) s' es
      decidable_of_iff _ (steps_cons_of_some h).symm

instance {P : σ → ε → Prop} [∀ s e, Decidable (P s e)] : Decidable (Steps step P s es) :=
  decideSteps s es

theorem steps_true : Steps step (fun _ _ => True) s es := by
  induction es generalizing s with
  | nil => trivial
  | cons e es ih => exact ⟨trivial, fun _ _ => ih⟩

theorem Steps.imp {P Q : σ → ε → Prop} (h : ∀ t e, P t e → Q t e) (hs : Steps step P s es) :
    Steps step Q s es := by
  induction es generalizing s with
  | nil => trivial
  | cons e es ih => exact ⟨h _ _ hs.1, fun t ht => ih (hs.2 t ht)⟩

theorem Steps.and {P Q : σ → ε → Prop} (hP : Steps step P s es) (hQ : Steps step Q s es) :
    Steps step (fun t e => P t e ∧ Q t e) s es := by
  induction es generalizing s with
  | nil => trivial
  | cons e es ih => exact ⟨⟨hP.1, hQ.1⟩, fun t ht => ih (hP.2 t ht) (hQ.2 t ht)⟩

/-- In a run to its end, every event could happen. -/
theorem steps_isSome (h : (run step s es).isSome) :
    Steps step (fun t e => (step t e).isSome) s es := by
  induction es generalizing s with
  | nil => trivial
  | cons e es ih =>
    obtain ⟨s', hs'⟩ := Option.isSome_iff_exists.mp h
    obtain ⟨t, ht, hrun⟩ := run_cons.mp hs'
    rw [steps_cons_of_some ht]
    exact ⟨Option.isSome_iff_exists.mpr ⟨t, ht⟩, ih (Option.isSome_iff_exists.mpr ⟨s', hrun⟩)⟩

theorem states_eq_cons (step : σ → ε → Option σ) (s : σ) (es : List ε) :
    ∃ tail, states step s es = s :: tail := by
  cases es with
  | nil => exact ⟨[], rfl⟩
  | cons e es => exact ⟨_, rfl⟩

theorem states_cons (h : step s e = some s') :
    states step s (e :: es) = s :: states step s' es := by
  rw [states, h]

theorem mem_states_start : s ∈ states step s es := by
  obtain ⟨tail, htail⟩ := states_eq_cons step s es
  rw [htail]
  exact List.mem_cons_self

/-- **Invariants, at every moment.** What every step that meets `P` keeps holds in every state
of a run whose steps all meet `P`. -/
theorem states_induction {P : σ → ε → Prop} (I : σ → Prop) (hinit : I s)
    (hstep : ∀ t e t', I t → P t e → step t e = some t' → I t')
    (hsteps : Steps step P s es) : ∀ t ∈ states step s es, I t := by
  induction es generalizing s with
  | nil =>
    intro t ht
    rw [List.mem_singleton.mp ht]
    exact hinit
  | cons e es ih =>
    intro t ht
    rcases List.mem_cons.mp ht with rfl | ht
    · exact hinit
    · rcases hnext : step s e with _ | s'
      · rw [hnext] at ht
        cases ht
      · rw [hnext] at ht
        exact ih (hstep s e s' hinit hsteps.1 hnext) (hsteps.2 s' hnext) t ht

/-- What holds in all states of a run bars the steps that would break it. -/
theorem steps_of_states {I : σ → Prop} {Bad : σ → ε → Prop} (h : ∀ t ∈ states step s es, I t)
    (hbad : ∀ t e, Bad t e → ∃ t', step t e = some t' ∧ ¬ I t') :
    Steps step (fun t e => ¬ Bad t e) s es := by
  induction es generalizing s with
  | nil => trivial
  | cons e es ih =>
    refine ⟨?_, ?_⟩
    · intro hbads
      obtain ⟨t', ht', hI⟩ := hbad s e hbads
      rw [states_cons ht'] at h
      exact hI (h t' (List.mem_cons_of_mem _ mem_states_start))
    · intro t' ht'
      rw [states_cons ht'] at h
      exact ih fun t ht => h t (List.mem_cons_of_mem _ ht)

theorem steps_of_states_start {I : σ → Prop} (h : ∀ t ∈ states step s es, I t) :
    Steps step (fun t _ => I t) s es := by
  induction es generalizing s with
  | nil => trivial
  | cons e es ih =>
    refine ⟨h s mem_states_start, ?_⟩
    intro t' ht'
    rw [states_cons ht'] at h
    exact ih fun t ht => h t (List.mem_cons_of_mem _ ht)

theorem steps_of_forall {P : ε → Prop} (h : ∀ e ∈ es, P e) :
    Steps step (fun _ e => P e) s es := by
  induction es generalizing s with
  | nil => trivial
  | cons e es ih =>
    exact ⟨h e List.mem_cons_self, fun _ _ => ih fun d hd => h d (List.mem_cons_of_mem _ hd)⟩

theorem isChain_states_iff {R : σ → σ → Prop} : List.IsChain R (states step s es) ↔
    Steps step (fun t e => ∀ t' ∈ step t e, R t t') s es := by
  induction es generalizing s with
  | nil => exact ⟨fun _ => trivial, fun _ => .singleton s⟩
  | cons e es ih =>
    rw [states, Steps]
    cases hstep : step s e with
    | none => simp
    | some t =>
      have hR : (∀ t' ∈ some t, R s t') ↔ R s t := by simp
      have hrest : (∀ t' ∈ some t, Steps step (fun u e => ∀ u' ∈ step u e, R u u') t' es) ↔
          List.IsChain R (states step t es) := by
        rw [ih]
        simp
      obtain ⟨tail, htail⟩ := states_eq_cons step t es
      rw [hR, hrest]
      dsimp only
      rw [htail, List.isChain_cons_cons]

/-- **Growth.** Every two states of a run are related if and only if every step
relates its states. -/
theorem pairwise_states_iff {R : σ → σ → Prop} (htrans : ∀ a b c, R a b → R b c → R a c) :
    (states step s es).Pairwise R ↔ Steps step (fun t e => ∀ t' ∈ step t e, R t t') s es := by
  have : IsTrans σ R := ⟨htrans⟩
  rw [← List.isChain_iff_pairwise, isChain_states_iff]

end Runs
