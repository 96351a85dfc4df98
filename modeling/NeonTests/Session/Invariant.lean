import NeonTests.Session.Definitions

/-!
# A test session — what harmless events keep

`pytest_sessionstart` does not ask which process it runs in. As long as nothing is
recorded that does not matter.

* `Harmless` — the condition on a single event;
* `Inv` — every failed report is either in the log or still to be recorded by its
  process, and no cost report is gone;
* `inv_step` — one lemma an event, and a case for each stage inside the lock.
-/

namespace NeonTests.Session

open Runs
open NeonTests.ErrorLog (Call File Place System TestGroup ErrorLogModel Reading Represents Stage)

variable {Proc : Type}

def Phase.hasCleared : Phase → Bool
  | cleaning => true
  | running _ => true
  | _ => false

def Phase.hasLog : Phase → Bool
  | starting => true
  | phase => phase.hasCleared

-- ---------------------------------------------------------------------------
-- The condition
-- ---------------------------------------------------------------------------

section

variable [DecidableEq Proc]

/-- `p` is about to truncate the log file in `clear`. -/
def State.isClearing (s : State Proc) (p : Proc) : Bool :=
  match s.log.holder with
  | some (q, .clear, .entered) => q = p
  | _ => false

/-- `p` has truncated the log file and not written it yet. -/
def State.isWriting (s : State Proc) (p : Proc) : Bool :=
  match s.log.holder with
  | some (q, _, .opened _) => q = p
  | _ => false

/-- No process clears the log after something was recorded, or removes the cost
reports after one was written; and none crashes while it has a failed report to
record, or with the log file truncated. -/
def Harmless (s : State Proc) : Event Proc → Prop
  | .advance p => s.isClearing p → s.recorded = []
  | .rmtree _ => s.written = []
  | .crash p => (s.phase p).pending = [] ∧ s.isWriting p = false
  | _ => True

instance (s : State Proc) (e : Event Proc) : Decidable (Harmless s e) :=
  match e with
  | .start _ => .isTrue trivial
  | .acquire _ => .isTrue trivial
  | .advance _ => inferInstanceAs (Decidable (_ → _))
  | .rmtree _ => inferInstanceAs (Decidable (_ = _))
  | .runTest _ _ _ => .isTrue trivial
  | .writeCostReport _ _ => .isTrue trivial
  | .crash _ => inferInstanceAs (Decidable (_ ∧ _))

end

-- ---------------------------------------------------------------------------
-- The invariant
-- ---------------------------------------------------------------------------

/-- The failed reports of a session, each with the process that made it. -/
def made (events : List (Event Proc)) : List (Proc × FailedReport) :=
  events.flatMap fun
    | .runTest p nodeId reports => (failedReports nodeId reports).map fun r => (p, r)
    | _ => []

variable (config : Config Proc)

/-- What a record adds to a list. -/
def adds (place : Place) (x : Proc × FailedReport) : List String :=
  (Call.update (x.2.update config.testGroup)).adds place

/-- The log holds what was recorded, and nothing else. -/
def Matches (s : State Proc) (log : Reading) : Prop :=
  ∃ read, log = .ok read ∧ ∀ place, read.entries place = s.recorded.flatMap (adds config place)

/-- The process inside the lock is there for the call of its phase. -/
def Inside (s : State Proc) (log : Reading) (p : Proc) (call : Call) : Stage → Prop
  | .leaving outcome => outcome = .ok () ∧
    match call with
    | .construct => s.phase p = .importing
    | .clear => s.phase p = .starting ∧ Matches config s log
    | .update _ => ∃ pending, s.phase p = .running pending
  | .opened _ => (s.phase p).wants config = some call ∧ (call = .clear → s.recorded = [])
  | _ => (s.phase p).wants config = some call

variable [DecidableEq Proc]

/-- One process's reports, in its order. -/
def reportsOf (p : Proc) (reports : List (Proc × FailedReport)) : List FailedReport :=
  (reports.filter fun x => x.1 = p).map Prod.snd

structure Inv (past : List (Event Proc)) (s : State Proc) (log : Reading) : Prop where
  represents : Represents s.log log
  inside : ∀ p call stage, s.log.holder = some (p, call, stage) → Inside config s log p call stage
  accounted : ∀ p, reportsOf p s.recorded ++ (s.phase p).pending = reportsOf p (made past)
  /-- before the first `clear` is through, nothing can be recorded -/
  origin : Matches config s log ∨ s.recorded = [] ∧ ∀ p, (s.phase p).hasCleared = false
  constructed : ∀ p, (s.phase p).hasLog → p ∈ s.log.constructed
  costs : ∀ p name, .writeCostReport p name ∈ past → name ∈ s.written ∧ name ∈ s.costReports

variable {config} {s s' : State Proc} {past : List (Event Proc)} {log : Reading}
  {p : Proc} {e : Event Proc}

omit [DecidableEq Proc] in
theorem wants_cases {phase : Phase} {call : Call} (h : phase.wants config = some call) :
    (phase = .importing ∧ call = .construct) ∨ (phase = .starting ∧ call = .clear) ∨
      ∃ r pending, phase = .running (r :: pending) ∧
        call = .update (r.update config.testGroup) := by
  cases phase with
  | importing => exact .inl ⟨rfl, (Option.some.inj h).symm⟩
  | starting => exact .inr (.inl ⟨rfl, (Option.some.inj h).symm⟩)
  | running pending =>
    cases pending with
    | nil => cases h
    | cons r pending => exact .inr (.inr ⟨r, pending, rfl, (Option.some.inj h).symm⟩)
  | absent => cases h
  | cleaning => cases h
  | ended => cases h

/-- The update of a failed report never raises. -/
theorem body_update (testGroup : TestGroup) (r : FailedReport) (log : ErrorLogModel) :
    ∃ log', (r.update testGroup).body log = .ok log' := by
  unfold FailedReport.update
  split <;> exact ⟨_, rfl⟩

theorem reportsOf_append (p : Proc) (l r : List (Proc × FailedReport)) :
    reportsOf p (l ++ r) = reportsOf p l ++ reportsOf p r := by
  simp [reportsOf]

omit [DecidableEq Proc] in
theorem made_append (l r : List (Event Proc)) : made (l ++ r) = made l ++ made r :=
  List.flatMap_append

/-- Events that neither run a test nor write a cost report. -/
def Event.Quiet : Event Proc → Prop
  | .runTest _ _ _ => False
  | .writeCostReport _ _ => False
  | _ => True

omit [DecidableEq Proc] in
theorem Event.Quiet.made (h : e.Quiet) : made (past ++ [e]) = made past := by
  rw [made_append]
  cases e with
  | runTest p nodeId reports => exact h.elim
  | _ => exact List.append_nil _

omit [DecidableEq Proc] in
theorem Event.Quiet.costs (h : e.Quiet) {name : String}
    (hmem : .writeCostReport p name ∈ past ++ [e]) : .writeCostReport p name ∈ past := by
  rcases List.mem_append.mp hmem with hmem | hmem
  · exact hmem
  · rw [List.mem_singleton] at hmem
    subst hmem
    exact h.elim

/-- Once a process has cleared the log, it holds what was recorded. -/
theorem Inv.matches_of_cleared (hinv : Inv config past s log)
    (hp : (s.phase p).hasCleared = true) : Matches config s log := by
  refine hinv.origin.resolve_right fun h => ?_
  rw [h.2 p] at hp
  cases hp

theorem Inv.quiet (hinv : Inv config past s log) (he : e.Quiet) :
    Inv config (past ++ [e]) s log where
  represents := hinv.represents
  inside := hinv.inside
  accounted p := by
    rw [he.made]
    exact hinv.accounted p
  origin := hinv.origin
  constructed := hinv.constructed
  costs p name hmem := hinv.costs p name (he.costs hmem)

/-- The error log moves on, and stands for what it stood for. -/
theorem Inv.withLog (hinv : Inv config past s log) {sys : System Proc}
    (hrep : Represents sys log) (hconstructed : ∀ q ∈ s.log.constructed, q ∈ sys.constructed)
    (hinside : ∀ q call stage, sys.holder = some (q, call, stage) →
      Inside config s log q call stage) :
    Inv config past { s with log := sys } log where
  represents := hrep
  inside := hinside
  accounted := hinv.accounted
  origin := hinv.origin
  constructed q hq := hconstructed q (hinv.constructed q hq)
  costs := hinv.costs

theorem phase_setPhase (s : State Proc) (p : Proc) (phase : Phase) (q : Proc) :
    (s.setPhase p phase).phase q = if q = p then phase else s.phase q :=
  Function.update_apply ..

omit [DecidableEq Proc] in
theorem Inside.congr {call : Call} {stage : Stage} (h : Inside config s log p call stage)
    (hphase : s'.phase p = s.phase p) (hrecorded : s'.recorded = s.recorded) :
    Inside config s' log p call stage := by
  cases stage <;> cases call <;> simpa [Inside, Matches, hphase, hrecorded] using h

/-- A process outside the lock moves on: whoever is inside does not see it. -/
theorem Inv.inside_setPhase (hinv : Inv config past s log) (phase : Phase)
    (hout : s.log.holder.map Prod.fst ≠ some p) {q : Proc} {call : Call} {stage : Stage}
    (hq : s.log.holder = some (q, call, stage)) :
    Inside config (s.setPhase p phase) log q call stage := by
  have hne : q ≠ p := by
    rintro rfl
    apply hout
    rw [hq]
    rfl
  refine (hinv.inside q call stage hq).congr ?_ rfl
  rw [phase_setPhase, if_neg hne]

theorem Inv.constructed_setPhase (hinv : Inv config past s log) {phase : Phase}
    (hlog : phase.hasLog = true → p ∈ s.log.constructed) {q : Proc}
    (hq : ((s.setPhase p phase).phase q).hasLog = true) : q ∈ s.log.constructed := by
  rw [phase_setPhase] at hq
  split at hq
  · next h =>
    subst h
    exact hlog hq
  · exact hinv.constructed q hq

/-- A process outside the lock moves on, with nothing recorded and nothing more to
record. -/
theorem Inv.withPhase (hinv : Inv config past s log) (phase : Phase)
    (hout : s.log.holder.map Prod.fst ≠ some p) (hpending : phase.pending = (s.phase p).pending)
    (hcleared : phase.hasCleared = true → Matches config s log)
    (hlog : phase.hasLog = true → p ∈ s.log.constructed) :
    Inv config past (s.setPhase p phase) log where
  represents := hinv.represents
  inside q call stage hq := hinv.inside_setPhase phase hout hq
  accounted q := by
    rw [phase_setPhase]
    split
    · next h =>
      subst h
      rw [hpending]
      exact hinv.accounted q
    · exact hinv.accounted q
  origin := by
    rcases hinv.origin with hmatches | ⟨hrecorded, hcleared'⟩
    · exact .inl hmatches
    · cases hphase : phase.hasCleared with
      | true => exact .inl (hcleared hphase)
      | false =>
        refine .inr ⟨hrecorded, ?_⟩
        intro q
        rw [phase_setPhase]
        split
        · exact hphase
        · exact hcleared' q
  constructed q hq := hinv.constructed_setPhase hlog hq
  costs := hinv.costs

-- ---------------------------------------------------------------------------
-- Events outside the lock
-- ---------------------------------------------------------------------------

/-- Only a process with a call to make is inside the lock. -/
theorem Inv.outside (hinv : Inv config past s log)
    (himporting : s.phase p ≠ .importing) (hstarting : s.phase p ≠ .starting)
    (hrunning : ∀ pending, s.phase p ≠ .running pending) :
    s.log.holder.map Prod.fst ≠ some p := by
  intro h
  obtain ⟨⟨q, call, stage⟩, hholder, rfl⟩ := Option.map_eq_some_iff.mp h
  have hin := hinv.inside q call stage hholder
  have hwants (hw : (s.phase q).wants config = some call) : False := by
    rcases wants_cases hw with ⟨h, _⟩ | ⟨h, _⟩ | ⟨r, pending, h, _⟩
    · exact himporting h
    · exact hstarting h
    · exact hrunning _ h
  cases stage with
  | entered => exact hwants hin
  | loaded read => exact hwants hin
  | opened j => exact hwants hin.1
  | leaving outcome =>
    cases call with
    | construct => exact himporting hin.2
    | clear => exact hstarting hin.2.1
    | update u =>
      obtain ⟨pending, h⟩ := hin.2
      exact hrunning pending h

theorem Inv.start (hinv : Inv config past s log) (h : step config s (.start p) = some s') :
    Inv config (past ++ [.start p]) s' log := by
  rw [step, Option.ite_none_right_eq_some] at h
  obtain ⟨⟨habsent, _⟩, hs'⟩ := h
  cases hs'
  have hout : s.log.holder.map Prod.fst ≠ some p := by
    refine hinv.outside ?_ ?_ ?_ <;> simp [habsent]
  have hmoved : Inv config past (s.setPhase p .importing) log := by
    refine hinv.withPhase _ hout ?_ nofun nofun
    rw [habsent]
    rfl
  have hquiet := hmoved.quiet (e := .start p) trivial
  exact ⟨hquiet.represents, hquiet.inside, hquiet.accounted, hquiet.origin, hquiet.constructed,
    hquiet.costs⟩

theorem Inv.rmtree (hinv : Inv config past s log) (hharmless : s.written = [])
    (h : step config s (.rmtree p) = some s') : Inv config (past ++ [.rmtree p]) s' log := by
  rw [step, Option.ite_none_right_eq_some] at h
  obtain ⟨hcleaning, hs'⟩ := h
  cases hs'
  have hout : s.log.holder.map Prod.fst ≠ some p := by
    refine hinv.outside ?_ ?_ ?_ <;> simp [hcleaning]
  have hmatches : Matches config s log := hinv.matches_of_cleared (p := p) (by rw [hcleaning]; rfl)
  have hlog : p ∈ s.log.constructed := by
    apply hinv.constructed
    rw [hcleaning]
    rfl
  have hmoved : Inv config past (s.setPhase p (.running [])) log := by
    refine hinv.withPhase _ hout ?_ (fun _ => hmatches) fun _ => hlog
    rw [hcleaning]
    rfl
  have hquiet := hmoved.quiet (e := .rmtree p) trivial
  refine ⟨hquiet.represents, hquiet.inside, hquiet.accounted, hquiet.origin, hquiet.constructed, ?_⟩
  -- nothing has been written that could be removed
  intro q name hmem
  have hwritten : name ∈ s.written := (hquiet.costs q name hmem).1
  rw [hharmless] at hwritten
  cases hwritten

theorem Inv.runTest {nodeId : String} {reports : List Report} (hinv : Inv config past s log)
    (h : step config s (.runTest p nodeId reports) = some s') :
    Inv config (past ++ [.runTest p nodeId reports]) s' log := by
  rw [step, Option.ite_none_right_eq_some] at h
  obtain ⟨⟨_, hrunning, hout⟩, hs'⟩ := h
  cases hs'
  have hmatches : Matches config s log := hinv.matches_of_cleared (p := p) (by rw [hrunning]; rfl)
  refine ⟨hinv.represents, ?_, ?_, .inl hmatches, ?_, ?_⟩
  · intro q call stage hq
    exact hinv.inside_setPhase _ hout hq
  · intro q
    rw [made_append, reportsOf_append, ← hinv.accounted q, phase_setPhase]
    by_cases hq : q = p
    · subst hq
      simp [made, reportsOf, hrunning, Phase.pending, State.setPhase, List.filter_map,
        Function.comp_def]
    · have hq' : ¬ p = q := fun h => hq h.symm
      simp [made, reportsOf, hq, hq', State.setPhase, List.filter_map, Function.comp_def]
  · intro q hq
    refine hinv.constructed_setPhase (fun _ => hinv.constructed p ?_) hq
    rw [hrunning]
    rfl
  · intro q name hmem
    refine hinv.costs q name ?_
    simpa using hmem

theorem Inv.writeCostReport {name : String} (hinv : Inv config past s log)
    (h : step config s (.writeCostReport p name) = some s') :
    Inv config (past ++ [.writeCostReport p name]) s' log := by
  rw [step, Option.ite_none_right_eq_some] at h
  obtain ⟨_, hs'⟩ := h
  cases hs'
  refine ⟨hinv.represents, hinv.inside, ?_, hinv.origin, hinv.constructed, ?_⟩
  · intro q
    have hmade : made (past ++ [.writeCostReport p name]) = made past := by
      rw [made_append]
      exact List.append_nil _
    rw [hmade]
    exact hinv.accounted q
  · intro q name' hmem
    rcases List.mem_append.mp hmem with hmem | hmem
    · obtain ⟨hwritten, hreport⟩ := hinv.costs q name' hmem
      exact ⟨List.mem_cons_of_mem _ hwritten, List.mem_cons_of_mem _ hreport⟩
    · obtain ⟨rfl, rfl⟩ : q = p ∧ name' = name := by simpa using hmem
      exact ⟨List.mem_cons_self, List.mem_cons_self⟩

/-- A process that leaves the lock without having truncated the file leaves the log
as it was. -/
theorem represents_release {sys : System Proc} (hrep : Represents sys log)
    (hwhole : ∀ call j, sys.holder ≠ some (p, call, .opened j)) :
    Represents (release sys p) log := by
  unfold release
  split
  · next h =>
    obtain ⟨⟨q, call, stage⟩, hholder, rfl⟩ := Option.map_eq_some_iff.mp h
    refine ⟨hrep.present, fun _ => ?_, by simp⟩
    obtain ⟨_, _, hat⟩ := hrep.held q call stage hholder
    cases stage with
    | entered => exact hat
    | loaded read => exact hat.2.1
    | opened j => exact (hwhole call j hholder).elim
    | leaving outcome => exact hat
  · exact hrep

theorem holder_release {sys : System Proc} : (release sys p).holder.map Prod.fst ≠ some p := by
  unfold release
  split
  · nofun
  · assumption

theorem Inv.crash (hinv : Inv config past s log) (hharmless : Harmless s (.crash p))
    (h : step config s (.crash p) = some s') : Inv config (past ++ [.crash p]) s' log := by
  obtain ⟨hpending, hwriting⟩ := hharmless
  have hwhole (call : Call) (j : Json) : s.log.holder ≠ some (p, call, .opened j) := by
    intro hholder
    simp [State.isWriting, hholder] at hwriting
  rw [step, Option.ite_none_left_eq_some] at h
  obtain ⟨_, hs'⟩ := h
  cases hs'
  have hreleased : Inv config past { s with log := release s.log p } log := by
    refine hinv.withLog (represents_release hinv.represents hwhole) ?_ ?_
    · intro q hq
      unfold release
      split <;> exact hq
    · intro q call stage hq
      unfold release at hq
      split at hq
      · cases hq
      · exact hinv.inside q call stage hq
  have hmoved := hreleased.withPhase .ended holder_release hpending.symm nofun nofun
  have hquiet := hmoved.quiet (e := .crash p) trivial
  exact ⟨hquiet.represents, hquiet.inside, hquiet.accounted, hquiet.origin, hquiet.constructed,
    hquiet.costs⟩

-- ---------------------------------------------------------------------------
-- Events at the lock
-- ---------------------------------------------------------------------------

theorem Inv.acquire (hinv : Inv config past s log) (h : step config s (.acquire p) = some s') :
    Inv config (past ++ [.acquire p]) s' log := by
  rw [step] at h
  obtain ⟨call, hwants, h⟩ := Option.bind_eq_some_iff.mp h
  obtain ⟨sys, hsys, h⟩ := Option.bind_eq_some_iff.mp h
  cases h
  refine Inv.quiet ?_ trivial
  refine hinv.withLog (ErrorLog.represents_step hinv.represents hsys) ?_ ?_
  · intro q hq
    rw [ErrorLog.step, Option.ite_none_right_eq_some] at hsys
    cases hsys.2
    exact hq
  · intro q call' stage hq
    rw [ErrorLog.step, Option.ite_none_right_eq_some] at hsys
    cases hsys.2
    cases hq
    exact hwants

/-- A call returns: the process goes on with what it does next. -/
theorem Inv.returned (hinv : Inv config past s log) {call : Call}
    {outcome : Except Python.PyError Unit} (hholder : s.log.holder = some (p, call, .leaving outcome))
    {sys : System Proc} (hsys : ErrorLog.step s.log (.advance p) = some sys) :
    Inv config past (afterOperation s p sys) log := by
  have hrep := ErrorLog.represents_step hinv.represents hsys
  have hcommits : ErrorLog.commits s.log (.advance p) = [] := by
    simp [ErrorLog.commits, hholder, Stage.isLeaving]
  rw [hcommits] at hrep
  have hafter : afterOperation s p sys =
      { s with log := sys }.setPhase p ((s.phase p).released outcome) := by
    rw [afterOperation, hholder]
    rfl
  have hstep : sys = ⟨s.log.file,
      if call = .construct then p :: s.log.constructed else s.log.constructed, none⟩ := by
    simpa [ErrorLog.step, hholder] using hsys.symm
  obtain ⟨rfl, hphase⟩ := hinv.inside p call _ hholder
  have hconstructed : ∀ q ∈ s.log.constructed, q ∈ sys.constructed := by
    intro q hq
    rw [hstep]
    dsimp only
    split
    · exact List.mem_cons_of_mem _ hq
    · exact hq
  have hfree : sys.holder = none := by
    rw [hstep]
  have hmoved : Inv config past { s with log := sys } log := by
    refine hinv.withLog hrep hconstructed ?_
    intro q call stage hq
    rw [hfree] at hq
    cases hq
  have hout : sys.holder.map Prod.fst ≠ some p := by
    intro h
    rw [hfree] at h
    cases h
  rw [hafter]
  cases call with
  | construct =>
    have hphase : s.phase p = .importing := hphase
    rw [hphase]
    refine hmoved.withPhase _ hout ?_ (fun h => by cases h) fun _ => ?_
    · show _ = (s.phase p).pending
      rw [hphase]
      rfl
    · show p ∈ sys.constructed
      rw [hstep]
      exact List.mem_cons_self
  | clear =>
    obtain ⟨hphase, hmatches⟩ := hphase
    rw [hphase]
    refine hmoved.withPhase _ hout ?_ (fun _ => hmatches) fun _ => ?_
    · show _ = (s.phase p).pending
      rw [hphase]
      rfl
    · refine hconstructed p (hinv.constructed p ?_)
      rw [hphase]
      rfl
  | update u =>
    obtain ⟨pending, hphase⟩ := hphase
    have hreleased : (s.phase p).released (.ok ()) = s.phase p := by
      rw [hphase]
      rfl
    rw [hreleased]
    exact hmoved.withPhase _ hout rfl (fun h => hmoved.matches_of_cleared h)
      fun hlog => hconstructed p (hinv.constructed p hlog)

section Operations

variable {call : Call} {stage : Stage} {sys : System Proc}

/-- The system after an operation that does not leave the lock. -/
theorem operation_eq (hholder : s.log.holder = some (p, call, stage))
    (hstage : stage.isLeaving = false) (hsys : ErrorLog.step s.log (.advance p) = some sys) :
    sys = ⟨(ErrorLog.advance s.log.file call stage).1, s.log.constructed,
      some (p, call, (ErrorLog.advance s.log.file call stage).2)⟩ := by
  cases stage with
  | leaving outcome => cases hstage
  | entered => simpa [ErrorLog.step, hholder] using hsys.symm
  | loaded read => simpa [ErrorLog.step, hholder] using hsys.symm
  | opened j => simpa [ErrorLog.step, hholder] using hsys.symm

/-- An operation with no consequence outside the lock. -/
theorem Inv.operated (hinv : Inv config past s log)
    (hholder : s.log.holder = some (p, call, stage)) (hstage : stage.isLeaving = false)
    (hsys : ErrorLog.step s.log (.advance p) = some sys)
    (hlog : (ErrorLog.advance s.log.file call stage).2.isLeaving = true →
      ErrorLog.effect log call = log)
    (hinside : Inside config s log p call (ErrorLog.advance s.log.file call stage).2) :
    Inv config past { s with log := sys } log := by
  have hrep := ErrorLog.represents_step hinv.represents hsys
  have hsame : (if (ErrorLog.advance s.log.file call stage).2.isLeaving then
      ErrorLog.effect log call else log) = log := by
    split
    · next h => exact hlog h
    · rfl
  rw [ErrorLog.commits_advance hholder hstage, hsame] at hrep
  rw [operation_eq hholder hstage hsys] at hrep ⊢
  refine hinv.withLog hrep (fun _ hq => hq) ?_
  intro q call' stage' hq
  cases hq
  exact hinside

/-- The first operation of a call. -/
theorem Inv.entered (hinv : Inv config past s log) (hharmless : Harmless s (.advance p))
    (hholder : s.log.holder = some (p, call, .entered))
    (hsys : ErrorLog.step s.log (.advance p) = some sys) :
    Inv config past { s with log := sys } log := by
  have hwants : (s.phase p).wants config = some call := hinv.inside p call _ hholder
  obtain ⟨hcaller, _, hat⟩ := hinv.represents.held p call _ hholder
  rcases wants_cases hwants with ⟨hphase, rfl⟩ | ⟨hphase, rfl⟩ | ⟨r, pending, hphase, rfl⟩
  · refine hinv.operated hholder rfl hsys (fun _ => rfl) ?_
    cases hfile : s.log.file with
    | absent => exact ⟨hwants, fun h => by cases h⟩
    | truncated => exact ⟨rfl, hphase⟩
    | document j => exact ⟨rfl, hphase⟩
  · refine hinv.operated hholder rfl hsys (fun h => by cases h) ⟨hwants, fun _ => hharmless ?_⟩
    simp [State.isClearing, hholder]
  · have hpresent : s.log.file ≠ .absent :=
      hinv.represents.present (List.ne_nil_of_mem (hcaller.resolve_left fun h => by cases h))
    obtain ⟨read, rfl, _⟩ := hinv.matches_of_cleared (p := p) (by rw [hphase]; rfl)
    have hread : s.log.file.read = .ok read := (ErrorLog.log_eq_read hpresent).symm.trans hat
    have hloaded : (ErrorLog.advance s.log.file (.update (r.update config.testGroup)) .entered).2 =
        .loaded read := by
      simp only [ErrorLog.advance, hread]
    refine hinv.operated hholder rfl hsys ?_ ?_
    · intro h
      rw [hloaded] at h
      cases h
    · rw [hloaded]
      exact hwants

/-- The body of an update. -/
theorem Inv.loaded (hinv : Inv config past s log) {read : ErrorLogModel}
    (hholder : s.log.holder = some (p, call, .loaded read))
    (hsys : ErrorLog.step s.log (.advance p) = some sys) :
    Inv config past { s with log := sys } log := by
  have hwants : (s.phase p).wants config = some call := hinv.inside p call _ hholder
  obtain ⟨_, _, _, _, u, rfl⟩ := hinv.represents.held p call _ hholder
  rcases wants_cases hwants with ⟨_, h⟩ | ⟨_, h⟩ | ⟨r, pending, hphase, h⟩
  · cases h
  · cases h
  · cases h
    obtain ⟨log', hbody⟩ := body_update config.testGroup r read
    have hopened : (ErrorLog.advance s.log.file (.update (r.update config.testGroup))
        (.loaded read)).2 = .opened (ErrorLog.dump log') := by
      simp only [ErrorLog.advance, hbody]
    refine hinv.operated hholder rfl hsys ?_ ?_
    · intro h
      rw [hopened] at h
      cases h
    · rw [hopened]
      exact ⟨hwants, fun h => by cases h⟩

/-- Nothing but the document of an update is news to the process before the call is through. -/
theorem afterOperation_eq (hholder : s.log.holder = some (p, call, stage))
    (hstage : stage.isLeaving = false) (hcall : ∀ j u, stage = .opened j → call ≠ .update u) :
    afterOperation s p sys = { s with log := sys } := by
  rw [afterOperation, hholder]
  cases stage with
  | leaving outcome => cases hstage
  | entered => rfl
  | loaded read => rfl
  | opened j =>
    cases call with
    | construct => rfl
    | clear => rfl
    | update u => exact absurd rfl (hcall j u rfl)

theorem advance_opened (file : File) (call : Call) (j : Json) :
    (ErrorLog.advance file call (.opened j)).2 = .leaving (.ok ()) := by
  cases call <;> rfl

/-- Here a call takes effect. -/
theorem Inv.represents_opened (hinv : Inv config past s log) {j : Json}
    (hholder : s.log.holder = some (p, call, .opened j))
    (hsys : ErrorLog.step s.log (.advance p) = some sys) :
    Represents sys (ErrorLog.effect log call) := by
  have hrep := ErrorLog.represents_step hinv.represents hsys
  rw [ErrorLog.commits_advance hholder rfl, advance_opened] at hrep
  exact hrep

/-- The log is cleared, which it may be as long as nothing is recorded. -/
theorem Inv.cleared (hinv : Inv config past s log) {j : Json}
    (hholder : s.log.holder = some (p, .clear, .opened j)) (hphase : s.phase p = .starting)
    (hnothing : s.recorded = []) (hsys : ErrorLog.step s.log (.advance p) = some sys) :
    Inv config past { s with log := sys } (.ok .default) := by
  have hsys' := operation_eq hholder rfl hsys
  rw [advance_opened] at hsys'
  have hmatches : Matches config s (.ok .default) := by
    refine ⟨.default, rfl, ?_⟩
    intro place
    rw [hnothing]
    exact ErrorLog.entries_default place
  refine ⟨hinv.represents_opened hholder hsys, ?_, hinv.accounted, .inl hmatches, ?_, hinv.costs⟩
  · intro q call' stage hq
    rw [hsys'] at hq
    cases hq
    exact ⟨rfl, hphase, hmatches⟩
  · intro q hq
    rw [hsys']
    exact hinv.constructed q hq

/-- The log holds one more report. -/
theorem Inv.recorded (hinv : Inv config past s log) {j : Json} {r : FailedReport}
    {pending : List FailedReport}
    (hholder : s.log.holder = some (p, .update (r.update config.testGroup), .opened j))
    (hphase : s.phase p = .running (r :: pending))
    (hsys : ErrorLog.step s.log (.advance p) = some sys) :
    ∃ log', Inv config past
      { s.setPhase p (.running pending) with log := sys, recorded := s.recorded ++ [(p, r)] }
      log' := by
  have hsys' := operation_eq hholder rfl hsys
  rw [advance_opened] at hsys'
  have hcleared : (s.phase p).hasCleared = true := by
    rw [hphase]
    rfl
  have hconstructed : p ∈ s.log.constructed := by
    apply hinv.constructed
    rw [hphase]
    rfl
  obtain ⟨read, rfl, hentries⟩ := hinv.matches_of_cleared hcleared
  obtain ⟨log', heffect, hentries'⟩ :=
    ErrorLog.effect_ok read (.update (r.update config.testGroup))
  refine ⟨_, hinv.represents_opened hholder hsys, ?_, ?_, .inl ⟨log', heffect, ?_⟩, ?_, hinv.costs⟩
  · intro q call' stage hq
    rw [hsys'] at hq
    cases hq
    refine ⟨rfl, pending, ?_⟩
    exact (phase_setPhase s p _ p).trans (if_pos rfl)
  · intro q
    show reportsOf q (s.recorded ++ [(p, r)]) ++
      ((s.setPhase p (.running pending)).phase q).pending = reportsOf q (made past)
    rw [phase_setPhase, reportsOf_append, ← hinv.accounted q]
    by_cases hq : q = p
    · subst hq
      simp [reportsOf, hphase, Phase.pending]
    · have hq' : ¬ p = q := fun h => hq h.symm
      simp [reportsOf, hq, hq']
  · intro place
    rw [hentries', if_neg nofun, hentries place, List.flatMap_append]
    simp [adds]
  · intro q hq
    rw [hsys']
    exact hinv.constructed_setPhase (fun _ => hconstructed) hq

/-- **The document is written.** -/
theorem Inv.opened (hinv : Inv config past s log) {j : Json}
    (hholder : s.log.holder = some (p, call, .opened j))
    (hsys : ErrorLog.step s.log (.advance p) = some sys) :
    ∃ log', Inv config past (afterOperation s p sys) log' := by
  obtain ⟨hwants, hnothing⟩ := hinv.inside p call _ hholder
  rcases wants_cases hwants with ⟨hphase, rfl⟩ | ⟨hphase, rfl⟩ | ⟨r, pending, hphase, rfl⟩
  · rw [afterOperation_eq hholder rfl fun _ _ _ h => by cases h]
    refine ⟨log, hinv.operated hholder rfl hsys (fun _ => rfl) ?_⟩
    rw [advance_opened]
    exact ⟨rfl, hphase⟩
  · rw [afterOperation_eq hholder rfl fun _ _ _ h => by cases h]
    exact ⟨_, hinv.cleared hholder hphase (hnothing rfl) hsys⟩
  · have hafter : afterOperation s p sys = { s.setPhase p (.running pending) with
        log := sys, recorded := s.recorded ++ [(p, r)] } := by
      rw [afterOperation, hholder]
      dsimp only
      rw [hphase]
    rw [hafter]
    exact hinv.recorded hholder hphase hsys

end Operations

theorem Inv.advance (hinv : Inv config past s log) (hharmless : Harmless s (.advance p))
    (h : step config s (.advance p) = some s') :
    ∃ log', Inv config (past ++ [.advance p]) s' log' := by
  rw [step] at h
  obtain ⟨sys, hsys, h⟩ := Option.bind_eq_some_iff.mp h
  cases h
  suffices hmoved : ∃ log', Inv config past (afterOperation s p sys) log' by
    obtain ⟨log', hmoved⟩ := hmoved
    exact ⟨log', hmoved.quiet trivial⟩
  cases hholder : s.log.holder with
  | none => simp [ErrorLog.step, hholder] at hsys
  | some x =>
    obtain ⟨q, call, stage⟩ := x
    obtain rfl : q = p := by
      by_contra hq
      simp [ErrorLog.step, hholder, hq] at hsys
    cases stage with
    | leaving outcome => exact ⟨log, hinv.returned hholder hsys⟩
    | opened j => exact hinv.opened hholder hsys
    | entered =>
      rw [afterOperation_eq hholder rfl fun _ _ h => by cases h]
      exact ⟨log, hinv.entered hharmless hholder hsys⟩
    | loaded read =>
      rw [afterOperation_eq hholder rfl fun _ _ h => by cases h]
      exact ⟨log, hinv.loaded hholder hsys⟩

-- ---------------------------------------------------------------------------
-- All events
-- ---------------------------------------------------------------------------

theorem inv_initial (file : File) (costReports : List String) :
    Inv config [] (initial Proc file costReports) file.log where
  represents := ErrorLog.represents_initial file
  inside := by simp [initial, ErrorLog.initial]
  accounted _ := rfl
  origin := .inr ⟨rfl, fun _ => rfl⟩
  constructed := by simp [initial, Phase.hasLog, Phase.hasCleared]
  costs := by simp [initial]

theorem inv_step (hinv : Inv config past s log) (hharmless : Harmless s e)
    (h : step config s e = some s') : ∃ log', Inv config (past ++ [e]) s' log' := by
  cases e with
  | start p => exact ⟨log, hinv.start h⟩
  | acquire p => exact ⟨log, hinv.acquire h⟩
  | advance p => exact hinv.advance hharmless h
  | rmtree p => exact ⟨log, hinv.rmtree hharmless h⟩
  | runTest p nodeId reports => exact ⟨log, hinv.runTest h⟩
  | writeCostReport p name => exact ⟨log, hinv.writeCostReport h⟩
  | crash p => exact ⟨log, hinv.crash hharmless h⟩

end NeonTests.Session
