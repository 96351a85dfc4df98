import Mathlib.Data.List.Flatten
import NeonTests.ErrorLog.LockOrder

/-!
# Error log — what is read afterwards

* `effect_ok` — the effect of one call on each list of the log;
* `entries_replay` — the lists after a sequence of calls: what was added since
  the last `clear`, in order;
* `raising_released`, `raising_alone` — an update whose body raises, from the lock
  to its release;
* `no_update_lost` — the log after any run.
-/

namespace NeonTests.ErrorLog

open Python Fallible Runs

-- ---------------------------------------------------------------------------
-- The lists of the log
-- ---------------------------------------------------------------------------

inductive Place
  | failures (testGroup : TestGroup)
  | errors (testGroup : TestGroup)
  | comments
  deriving DecidableEq, Repr

def ErrorLogModel.entries (log : ErrorLogModel) : Place → List String
  | .failures g => log.failures.group g
  | .errors g => log.errors.group g
  | .comments => log.comments

def Update.place : Update → Place
  | addFailure g _ | addFailures g _ => .failures g
  | addError g _ => .errors g
  | addComment _ | raising _ => .comments

def Update.texts : Update → List String
  | addFailure _ name | addError _ name => [name]
  | addFailures _ names => names
  | addComment text => [text]
  | raising _ => []

/-- What a call adds to a list. -/
def Call.adds (place : Place) : Call → List String
  | .update u => if u.place = place then u.texts else []
  | _ => []

variable {Proc : Type} {log : ErrorLogModel}

theorem entries_default (place : Place) : ErrorLogModel.default.entries place = [] := by
  cases place <;> rfl

/-- One call, on a log that can be read. -/
theorem effect_ok (log : ErrorLogModel) (call : Call) :
    ∃ log', effect (.ok log) call = .ok log' ∧ ∀ place, log'.entries place =
      (if call = .clear then [] else log.entries place) ++ call.adds place := by
  cases call with
  | construct => exact ⟨log, rfl, fun place => (List.append_nil _).symm⟩
  | clear => exact ⟨.default, rfl, entries_default⟩
  | update u =>
    have hne : Call.update u ≠ .clear := by
      intro h
      cases h
    cases hbody : u.body log with
    | error e =>
      have hnone (place : Place) : (Call.update u).adds place = [] := by
        cases u <;> simp_all [Update.body, Call.adds, Update.texts]
      refine ⟨log, by simp [effect, hbody], ?_⟩
      intro place
      rw [if_neg hne, hnone, List.append_nil]
    | ok log' =>
      refine ⟨log', by simp [effect, hbody], ?_⟩
      intro place
      rw [if_neg hne]
      cases u <;> cases hbody <;> cases place <;>
        simp [ErrorLogModel.entries, Call.adds, Update.place, Update.texts, Dict.group_extend]

/-- The calls after the last `clear`. -/
def sinceClear (calls : List (Proc × Call)) : List (Proc × Call) :=
  calls.rtakeWhile fun x => x.2 ≠ .clear

def Cleared (calls : List (Proc × Call)) : Prop := ∃ p, (p, .clear) ∈ calls

instance (calls : List (Proc × Call)) : Decidable (Cleared calls) :=
  decidable_of_iff (∃ x ∈ calls, x.2 = Call.clear)
    ⟨fun ⟨⟨p, _⟩, hmem, rfl⟩ => ⟨p, hmem⟩, fun ⟨p, hmem⟩ => ⟨(p, _), hmem, rfl⟩⟩

/-- What was in the list before, if it could be read. -/
def before (log : Reading) (place : Place) : List String :=
  match log with
  | .ok log => log.entries place
  | .error _ => []

/-- What was in the list before the run, if nothing was cleared since, and what
the calls after the last `clear` have added, one after the other. -/
def recorded (log : Reading) (calls : List (Proc × Call)) (place : Place) : List String :=
  (if Cleared calls then [] else before log place) ++
    (sinceClear calls).flatMap fun x => x.2.adds place

/-- **The lists.** If there was a log to begin with, or it has been cleared. -/
theorem entries_replay (start : Reading) (calls : List (Proc × Call))
    (hstart : (∃ log, start = .ok log) ∨ Cleared calls) :
    ∃ log, replay start calls = .ok log ∧ ∀ place, log.entries place = recorded start calls place := by
  induction calls using List.reverseRecOn with
  | nil =>
    obtain ⟨log, rfl⟩ := hstart.resolve_right fun ⟨p, hp⟩ => by cases hp
    exact ⟨log, rfl, fun place => by simp [recorded, sinceClear, Cleared, before]⟩
  | append_singleton calls x ih =>
    obtain ⟨p, call⟩ := x
    have hlast : replay start (calls ++ [(p, call)]) = effect (replay start calls) call := by
      rw [replay_append]
      rfl
    rw [hlast]
    by_cases hclear : call = .clear
    · subst hclear
      have hcleared : Cleared (calls ++ [(p, .clear)]) := ⟨p, by simp⟩
      refine ⟨.default, rfl, ?_⟩
      intro place
      simp [entries_default, recorded, sinceClear, hcleared]
    · have hcleared : Cleared (calls ++ [(p, call)]) ↔ Cleared calls := by
        have hne : Call.clear ≠ call := fun h => hclear h.symm
        simp [Cleared, hne]
      obtain ⟨log, hreplay, hentries⟩ := ih (hstart.imp_right hcleared.mp)
      obtain ⟨log', heffect, hentries'⟩ := effect_ok log call
      refine ⟨log', by rw [hreplay, heffect], ?_⟩
      intro place
      rw [hentries', if_neg hclear, hentries]
      simp [recorded, sinceClear, hclear, hcleared]

-- ---------------------------------------------------------------------------
-- An update that raises
-- ---------------------------------------------------------------------------

variable [DecidableEq Proc] {s s' : System Proc}

/-- Inside the lock only the holder goes on, and its operation is determined. -/
theorem step_held {p : Proc} {call : Call} {stage : Stage} (hholder : s.holder = some (p, call, stage))
    {e : Event Proc} (h : step s e = some s') : e = .advance p := by
  obtain ⟨q, call', rfl, hfree, _, rfl⟩ | ⟨q, call', outcome, rfl, hq, rfl⟩ |
    ⟨q, call', stage', rfl, hq, _, rfl⟩ := step_cases h
  · rw [hholder] at hfree
    cases hfree
  · rw [hholder] at hq
    cases hq
    rfl
  · rw [hholder] at hq
    cases hq
    rfl

section Raising

variable {p : Proc} {u : Update} {e : PyError} (hfree : s.holder = none)
  (hread : s.file.read = .ok log) (hraises : u.body log = .error e)

/-- The states of a raising update. -/
def raisingAt (s : System Proc) (p : Proc) (u : Update) (stage : Stage) : System Proc :=
  { s with holder := some (p, .update u, stage) }

theorem raising_entered {log : ErrorLogModel} (hread : s.file.read = .ok log) :
    step (raisingAt s p u .entered) (.advance p) = some (raisingAt s p u (.loaded log)) := by
  simp [step, raisingAt, advance, hread]

theorem raising_loaded {log : ErrorLogModel} (hraises : u.body log = .error e) :
    step (raisingAt s p u (.loaded log)) (.advance p) =
      some (raisingAt s p u (.leaving (.error e))) := by
  simp [step, raisingAt, advance, hraises]

theorem raising_leaving (hfree : s.holder = none) (outcome : Except PyError Unit) :
    step (raisingAt s p u (.leaving outcome)) (.advance p) = some s := by
  obtain ⟨file, constructed, holder⟩ := s
  cases hfree
  simp [step, raisingAt]

include hfree hread hraises

/-- **A body that raises.** The call can always be gone through, and takes three
operations of its process: the lock is free after them and the file as before. -/
theorem raising_released (hp : p ∈ s.constructed) :
    run step s [.acquire p (.update u), .advance p, .advance p, .advance p] = some s := by
  have hacquire : step s (.acquire p (.update u)) = some (raisingAt s p u .entered) := by
    simp [step, hfree, hp, raisingAt]
  refine run_cons.mpr ⟨_, hacquire, ?_⟩
  refine run_cons.mpr ⟨_, raising_entered hread, ?_⟩
  refine run_cons.mpr ⟨_, raising_loaded hraises, ?_⟩
  exact run_singleton.mpr (raising_leaving hfree _)

/-- No other process comes in between, and none of the three changes the file. -/
theorem raising_alone {future : List (Event Proc)}
    (hrun : run step s (.acquire p (.update u) :: future) = some s') :
    (future.length < 3 ∧ (∀ x ∈ future, x = .advance p) ∧ s'.file = s.file) ∨
    ∃ rest, future = .advance p :: .advance p :: .advance p :: rest ∧ run step s rest = some s' := by
  obtain ⟨t, hacquire, hrun⟩ := run_cons.mp hrun
  obtain rfl : t = raisingAt s p u .entered := by
    rw [step, Option.ite_none_right_eq_some] at hacquire
    exact (Option.some.inj hacquire.2).symm
  cases future with
  | nil =>
    cases hrun
    exact .inl ⟨by simp, by simp, rfl⟩
  | cons e₁ future =>
    obtain ⟨t, hstep, hrun⟩ := run_cons.mp hrun
    cases step_held rfl hstep
    rw [raising_entered hread] at hstep
    cases hstep
    cases future with
    | nil =>
      cases hrun
      exact .inl ⟨by simp, by simp, rfl⟩
    | cons e₂ future =>
      obtain ⟨t, hstep, hrun⟩ := run_cons.mp hrun
      cases step_held rfl hstep
      rw [raising_loaded hraises] at hstep
      cases hstep
      cases future with
      | nil =>
        cases hrun
        exact .inl ⟨by simp, by simp, rfl⟩
      | cons e₃ future =>
        obtain ⟨t, hstep, hrun⟩ := run_cons.mp hrun
        cases step_held rfl hstep
        rw [raising_leaving hfree] at hstep
        cases hstep
        exact .inr ⟨future, rfl, hrun⟩

end Raising

-- ---------------------------------------------------------------------------
-- Any run
-- ---------------------------------------------------------------------------

/-- What one process has added to a list since the last `clear`, in its own order. -/
def addedBy (p : Proc) (calls : List (Proc × Call)) (place : Place) : List String :=
  ((sinceClear calls).filter fun x => x.1 = p).flatMap fun x => x.2.adds place

/-- **No update is lost.** However the operations of the processes interleave, and
if the run starts with a log (or no file) or clears what it starts with: whenever
the lock is free, the log reads as the calls in the order of the lock have made it,
with every process's own additions in its order. And an update whose body raises
releases the lock and leaves the file alone. -/
theorem no_update_lost (file : File) (events : List (Event Proc)) (s : System Proc)
    (hrun : run step (initial Proc file) events = some s) (hfree : s.holder = none)
    (hfile : (∃ log, file.log = .ok log) ∨ Cleared (lockOrder events)) :
    (s.constructed ≠ [] → ∃ log, s.file.read = .ok log ∧ ∀ place,
      log.entries place = recorded file.log (lockOrder events) place ∧
      ∀ p, (addedBy p (lockOrder events) place).Sublist (log.entries place)) ∧
    (∀ p ∈ s.constructed, ∀ u log e, s.file.read = .ok log → u.body log = .error e →
      run step s [.acquire p (.update u), .advance p, .advance p, .advance p] = some s ∧
      ∀ future s', run step s (.acquire p (.update u) :: future) = some s' →
        (future.length < 3 ∧ (∀ x ∈ future, x = .advance p) ∧ s'.file = s.file) ∨
        ∃ rest, future = .advance p :: .advance p :: .advance p :: rest ∧
          run step s rest = some s') := by
  obtain ⟨done, horder, hrep⟩ := represents_run (represents_initial file) rfl hrun
  have hinFlight : inFlight s = [] := by
    rw [inFlight, hfree]
  rw [hinFlight, List.append_nil] at horder
  rw [horder] at hfile ⊢
  refine ⟨?_, ?_⟩
  · intro hreader
    obtain ⟨log, hreplay, hentries⟩ := entries_replay file.log done hfile
    refine ⟨log, ?_, ?_⟩
    · rw [← log_eq_read (hrep.present hreader), hrep.free hfree, hreplay]
    · intro place
      refine ⟨hentries place, ?_⟩
      intro p
      rw [hentries, recorded]
      exact (List.filter_sublist.flatMap _).trans (List.sublist_append_right _ _)
  · intro p hp u log e hread hraises
    exact ⟨raising_released hfree hread hraises hp,
      fun _ _ => raising_alone hfree hread hraises⟩

/-- Two processes, the second one waiting for the first to leave the lock. -/
def sampleEvents : List (Event (Fin 2)) := [
  .acquire 0 .construct, .advance 0, .advance 0, .advance 0,
  .acquire 1 .construct, .advance 1, .advance 1,
  .acquire 1 (.update (.addFailure .basic "test_b")), .advance 1, .advance 1, .advance 1,
  .advance 1,
  .acquire 0 (.update (.addFailure .basic "test_a")), .advance 0, .advance 0, .advance 0,
  .advance 0]

def sampleState : System (Fin 2) :=
  (run step (initial (Fin 2) .absent) sampleEvents).getD (initial (Fin 2) .absent)

theorem no_update_lost_sample : ∃ log, sampleState.file.read = .ok log ∧ ∀ place,
    log.entries place = recorded (.ok .default) (lockOrder sampleEvents) place ∧
    ∀ p, (addedBy p (lockOrder sampleEvents) place).Sublist (log.entries place) :=
  (no_update_lost .absent sampleEvents sampleState rfl rfl (.inl ⟨.default, rfl⟩)).1
    (List.cons_ne_nil 1 [0])

end NeonTests.ErrorLog
