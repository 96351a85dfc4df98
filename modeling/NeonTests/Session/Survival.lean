import NeonTests.Session.Invariant

/-!
# A test session — what is left of it at the end

* `records_survive` — the log and the cost reports of a session of harmless events;
* `records_lost` — a worker that is replaced: the new process clears what the
  others have recorded.
-/

namespace NeonTests.Session

open Runs
open NeonTests.ErrorLog (File Place TestGroup Reading)

variable {Proc : Type}

-- ---------------------------------------------------------------------------
-- What the log should hold
-- ---------------------------------------------------------------------------

/-- The list a failed report belongs to. -/
def FailedReport.place (testGroup : TestGroup) (r : FailedReport) : Place :=
  if r.when = .call then .failures testGroup else .errors testGroup

/-- The node ids of the failed reports that belong to a list. -/
def failedIds (config : Config Proc) (events : List (Event Proc)) (place : Place) :
    List String :=
  (made events).flatMap fun x =>
    if x.2.place config.testGroup = place then [x.2.nodeId] else []

/-- The records of a session, after these events: no cost report it has written is gone,
whether it has ended or not; once it has, the log holds its failed reports and nothing
else. -/
structure Survives (config : Config Proc) (events : List (Event Proc)) (s : State Proc) :
    Prop where
  costReports : ∀ p name, .writeCostReport p name ∈ events → name ∈ s.costReports
  log : s.Ended → ∃ log, s.log.file.read = .ok log ∧
    ∀ place, (log.entries place).Perm (failedIds config events place)

variable [DecidableEq Proc] {config : Config Proc} {s : State Proc} {log : Reading}

-- ---------------------------------------------------------------------------
-- Sessions
-- ---------------------------------------------------------------------------

theorem count_reportsOf (p : Proc) (r : FailedReport) (l : List (Proc × FailedReport)) :
    (reportsOf p l).count r = l.count (p, r) := by
  induction l with
  | nil => rfl
  | cons x l ih =>
    obtain ⟨q, r'⟩ := x
    have hcons : reportsOf p ((q, r') :: l) = (if q = p then [r'] else []) ++ reportsOf p l := by
      by_cases hq : q = p <;> simp [reportsOf, hq]
    rw [hcons, List.count_append, ih, List.count_cons, Nat.add_comm]
    by_cases hq : q = p <;> by_cases hr : r' = r <;> simp [hq, hr]

/-- What agrees for each process agrees as a whole, but for the order. -/
theorem perm_of_reportsOf {l r : List (Proc × FailedReport)}
    (h : ∀ p, reportsOf p l = reportsOf p r) : l.Perm r := by
  rw [List.perm_iff_count]
  rintro ⟨p, x⟩
  rw [← count_reportsOf, ← count_reportsOf, h p]

omit [DecidableEq Proc] in
theorem adds_eq (place : Place) (x : Proc × FailedReport) : adds config place x =
    if x.2.place config.testGroup = place then [x.2.nodeId] else [] := by
  obtain ⟨p, nodeId, when⟩ := x
  cases when <;> rfl

theorem survives_of_inv {events : List (Event Proc)} (hinv : Inv config events s log) :
    Survives config events s := by
  refine ⟨fun q name hmem => (hinv.costs q name hmem).2, ?_⟩
  rintro ⟨hfree, hdone, p, hp⟩
  obtain ⟨read, rfl, hentries⟩ := hinv.matches_of_cleared (p := p) (by rw [hp]; rfl)
  have hconstructed : p ∈ s.log.constructed := by
    apply hinv.constructed
    rw [hp]
    rfl
  have hread : s.log.file.read = .ok read := by
    have hpresent := hinv.represents.present (List.ne_nil_of_mem hconstructed)
    rw [← ErrorLog.log_eq_read hpresent, hinv.represents.free hfree]
  have hperm : s.recorded.Perm (made events) := by
    refine perm_of_reportsOf ?_
    intro q
    have hnone : (s.phase q).pending = [] := by
      rcases hdone q with h | h | h <;> rw [h] <;> rfl
    have haccounted := hinv.accounted q
    rwa [hnone, List.append_nil] at haccounted
  refine ⟨read, hread, ?_⟩
  intro place
  rw [hentries place, failedIds]
  have hadds : adds config place = fun x : Proc × FailedReport =>
      if x.2.place config.testGroup = place then [x.2.nodeId] else [] :=
    funext (adds_eq place)
  rw [hadds]
  exact hperm.flatMap_right _

/-- **Records survive.** Whatever log file there was before: in every session whose
events are all harmless, and in every state it reaches, the cost reports written so far are
there, and if the session has ended there, its log is complete. -/
theorem records_survive (config : Config Proc) (file : File) (costReports : List String)
    (events : List (Event Proc)) (s : State Proc)
    (hrun : run (step config) (initial Proc file costReports) events = some s)
    (hharmless : Steps (step config) Harmless (initial Proc file costReports) events) :
    Survives config events s := by
  obtain ⟨log, hinv⟩ := run_induction (fun past t => ∃ log, Inv config past t log)
    ⟨file.log, inv_initial file costReports⟩
    (fun _ _ _ _ ⟨_, hinv⟩ hharmless hstep => inv_step hinv hharmless hstep) hharmless hrun
  exact survives_of_inv hinv

-- ---------------------------------------------------------------------------
-- A worker that is replaced
-- ---------------------------------------------------------------------------

/-- The controller, one worker, and the one that may replace it. -/
inductive Xdist
  | controller
  | gw0
  | gw1
  deriving DecidableEq, Repr

def sampleConfig : Config Xdist where
  initial := [.controller, .gw0]
  testGroup := .basic
  collectsCosts := true

/-- `pytest_sessionstart` where the log file is there already. -/
def sessionStart (p : Xdist) : List (Event Xdist) := [
  .start p, .acquire p, .advance p, .advance p,
  .acquire p, .advance p, .advance p, .advance p, .rmtree p]

/-- The worker runs a test that fails, and records it. -/
def failedTest : List (Event Xdist) := [
  .writeCostReport .gw0 "utils.erc20.ERC20-report.json",
  .runTest .gw0 "test_transfer.py::test_transfer" [⟨.setup, .passed⟩, ⟨.call, .failed⟩],
  .acquire .gw0, .advance .gw0, .advance .gw0, .advance .gw0, .advance .gw0]

def sampleFile : File := .document (ErrorLog.dump .default)

/-- Then it crashes, and is replaced. -/
def lostSession : List (Event Xdist) :=
  sessionStart .controller ++ sessionStart .gw0 ++ failedTest ++ [.crash .gw0] ++ sessionStart .gw1

/-- What the worker recorded is gone after its replacement has started. -/
theorem records_lost : ∃ s,
    run (step sampleConfig) (initial Xdist sampleFile []) lostSession = some s ∧
    s.costReports = [] ∧
    ¬ Survives sampleConfig lostSession s := by
  refine ⟨_, rfl, rfl, ?_⟩
  intro h
  obtain ⟨log, hread, hperm⟩ := h.log ⟨rfl, fun p => by cases p <;> decide, .controller, rfl⟩
  have hlog : log = .default := (Except.ok.inj hread).symm
  have hlength := (hperm (.failures .basic)).length_eq
  rw [hlog] at hlength
  revert hlength
  decide

theorem records_survive_failedTest : ∃ s, run (step sampleConfig) (initial Xdist sampleFile [])
      (sessionStart .controller ++ sessionStart .gw0 ++ failedTest) = some s ∧
    Survives sampleConfig (sessionStart .controller ++ sessionStart .gw0 ++ failedTest) s :=
  ⟨_, rfl, records_survive sampleConfig sampleFile [] _ _ rfl (by decide)⟩

end NeonTests.Session
