import Mathlib.Logic.Function.Basic
import NeonTests.ErrorLog.Contents

/-!
# A test session — several processes, one error log

The hooks of `conftest.py` in a session with `--make-report` and without
`--keep-error-log`. The controller and every worker run the same hooks: each
imports `error_log`, clears it and removes the cost reports in
`pytest_sessionstart`, and records the failed reports of the tests it runs in
`pytest_runtest_protocol`. A process that crashes may be replaced by a new one,
which runs `pytest_sessionstart` again.

`recorded` and `written` only keep account; no process reads them.
-/

namespace NeonTests.Session

open NeonTests.ErrorLog (Call File Place System TestGroup Update)

-- ---------------------------------------------------------------------------
-- Reports
-- ---------------------------------------------------------------------------

inductive When
  | setup
  | call
  | teardown
  deriving DecidableEq, Repr

inductive Outcome
  | passed
  | failed
  | skipped
  deriving DecidableEq, Repr

/-- What `runtestprotocol` returns for a phase of a test. -/
structure Report where
  when : When
  outcome : Outcome
  deriving DecidableEq, Repr

/-- A report that `pytest_runtest_protocol` has to record. -/
structure FailedReport where
  nodeId : String
  when : When
  deriving DecidableEq, Repr

/-- `for report in reports: if report.outcome == "failed"` -/
def failedReports (nodeId : String) (reports : List Report) : List FailedReport :=
  reports.filterMap fun r => if r.outcome = .failed then some ⟨nodeId, r.when⟩ else none

/-- The update a failed report is recorded by. -/
def FailedReport.update (testGroup : TestGroup) (r : FailedReport) : Update :=
  if r.when = .call then .addFailure testGroup r.nodeId else .addError testGroup r.nodeId

-- ---------------------------------------------------------------------------
-- Processes
-- ---------------------------------------------------------------------------

structure Config (Proc : Type) where
  /-- the controller and the workers it starts with -/
  initial : List Proc
  testGroup : TestGroup
  /-- `COST_REPORT_DIR` is set -/
  collectsCosts : Bool

inductive Phase
  | absent
  /-- the conftest is being imported, and `error_log` with it -/
  | importing
  /-- in `pytest_sessionstart`, before the log is cleared -/
  | starting
  /-- in `pytest_sessionstart`, before the cost reports are removed -/
  | cleaning
  /-- running tests; the failed reports of the last one still to be recorded -/
  | running (pending : List FailedReport)
  /-- crashed, or stopped by an error in a hook -/
  | ended
  deriving DecidableEq, Repr

def Phase.pending : Phase → List FailedReport
  | running pending => pending
  | _ => []

def Phase.hasStarted : Phase → Bool
  | running _ => true
  | ended => true
  | _ => false

variable {Proc : Type}

/-- The call of the error log a process makes next. -/
def Phase.wants (config : Config Proc) : Phase → Option Call
  | importing => some .construct
  | starting => some .clear
  | running (r :: _) => some (.update (r.update config.testGroup))
  | _ => none

/-- When a call returns or raises. -/
def Phase.released (outcome : Except Python.PyError Unit) : Phase → Phase
  | importing => starting
  | starting => cleaning
  | phase =>
    match outcome with
    | .ok _ => phase
    | .error _ => ended

-- ---------------------------------------------------------------------------
-- Sessions
-- ---------------------------------------------------------------------------

structure State (Proc : Type) where
  log : System Proc
  phase : Proc → Phase
  /-- the files in `COST_REPORT_DIR` -/
  costReports : List String
  /-- crashed processes that nothing has taken the place of -/
  unreplaced : Nat
  /-- the failed reports written to the log so far -/
  recorded : List (Proc × FailedReport)
  /-- the cost reports written so far -/
  written : List String

inductive Event (Proc : Type)
  | start (p : Proc)
  /-- a process gets the lock of the error log -/
  | acquire (p : Proc)
  /-- an operation inside the lock -/
  | advance (p : Proc)
  /-- `shutil.rmtree(COST_REPORT_DIR)` -/
  | rmtree (p : Proc)
  | runTest (p : Proc) (nodeId : String) (reports : List Report)
  /-- a cost report is created or extended during a test -/
  | writeCostReport (p : Proc) (name : String)
  | crash (p : Proc)
  deriving DecidableEq, Repr

variable [DecidableEq Proc]

def State.setPhase (s : State Proc) (p : Proc) (phase : Phase) : State Proc :=
  { s with phase := Function.update s.phase p phase }

/-- The lock of a process that is gone is free; the file stays as it was left. -/
def release (log : System Proc) (p : Proc) : System Proc :=
  if log.holder.map Prod.fst = some p then { log with holder := none } else log

variable (config : Config Proc)

/-- A test can run in `p`: the initial processes have started, and `p` is through
with the test before. -/
def State.Ready (s : State Proc) (p : Proc) : Prop :=
  (∀ q ∈ config.initial, (s.phase q).hasStarted) ∧ s.phase p = .running [] ∧
    s.log.holder.map Prod.fst ≠ some p

instance (s : State Proc) (p : Proc) : Decidable (s.Ready config p) :=
  inferInstanceAs (Decidable (_ ∧ _))

/-- An operation inside the lock, for its process: a report is in the log once the
document is written, and the process goes on when the call is through. -/
def afterOperation (s : State Proc) (p : Proc) (log : System Proc) : State Proc :=
  match s.log.holder with
  | none => { s with log := log }
  | some (_, call, stage) =>
    match stage with
    | .leaving outcome => { s.setPhase p ((s.phase p).released outcome) with log := log }
    | .opened _ =>
      match call, s.phase p with
      | .update _, .running (r :: pending) =>
        { s.setPhase p (.running pending) with log := log, recorded := s.recorded ++ [(p, r)] }
      | _, _ => { s with log := log }
    | _ => { s with log := log }

def step (s : State Proc) : Event Proc → Option (State Proc)
  | .start p =>
    if s.phase p = .absent ∧ (p ∈ config.initial ∨ 0 < s.unreplaced) then
      some { s.setPhase p .importing with
        unreplaced := if p ∈ config.initial then s.unreplaced else s.unreplaced - 1 }
    else none
  | .acquire p => do
    let call ← (s.phase p).wants config
    let log ← ErrorLog.step s.log (.acquire p call)
    return { s with log := log }
  | .advance p => do
    let log ← ErrorLog.step s.log (.advance p)
    return afterOperation s p log
  | .rmtree p =>
    if s.phase p = .cleaning then
      some { s.setPhase p (.running []) with
        costReports := if config.collectsCosts then [] else s.costReports }
    else none
  | .runTest p nodeId reports =>
    if s.Ready config p then some (s.setPhase p (.running (failedReports nodeId reports))) else none
  | .writeCostReport p name =>
    if s.Ready config p ∧ config.collectsCosts then
      some { s with costReports := name :: s.costReports, written := name :: s.written }
    else none
  | .crash p =>
    if s.phase p = .absent ∨ s.phase p = .ended then none
    else some { s.setPhase p .ended with
      log := release s.log p
      unreplaced := s.unreplaced + 1 }

variable (Proc) in
/-- What the session finds: a log, or none, and cost reports of earlier sessions. -/
def initial (file : File) (costReports : List String) : State Proc where
  log := ErrorLog.initial Proc file
  phase _ := .absent
  costReports := costReports
  unreplaced := 0
  recorded := []
  written := []

/-- Nothing is left to do, and the session has a process that saw it through. -/
def State.Ended (s : State Proc) : Prop :=
  s.log.holder = none ∧ (∀ p, s.phase p = .absent ∨ s.phase p = .ended ∨ s.phase p = .running []) ∧
    ∃ p, s.phase p = .running []

end NeonTests.Session
