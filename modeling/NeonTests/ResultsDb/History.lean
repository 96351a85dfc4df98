import NeonTests.Lib.Runs
import NeonTests.ResultsDb.Replace

/-!
# Test results database — the history of the long-lived branches

`compare_dapp_results` and the workflow around it decide by the compared tag
alone; so does the deletion. Only the decision to delete looks at both tags.
Hence a run whose two tags differ deletes the history of a long-lived branch:

* `mem_reports_after` — which stored reports a single run leaves;
* `history_grows_iff` — over any sequence of runs, refused ones included, the
  history only grows exactly when every run meets `Spares`.
-/

namespace NeonTests.ResultsDb

open NeonTests.CostReport Python Scripts Runs

-- ---------------------------------------------------------------------------
-- Runs
-- ---------------------------------------------------------------------------

/-- The tag a report is compared under. -/
def CostReport.tag (r : CostReport) : String :=
  if r.repo = .evm then r.neonEvmTag else r.proxyTag

/-- One call of the command, and what it meets. -/
structure SaveRun where
  cmd : SaveCommand
  /-- what `prepare_report_data` returned or raised -/
  reportData : Except PyError (List Row)
  now : Nat
  failing : Option DbStep

section

variable (isDecimal : Char → Bool)

/-- develop, or a version branch -/
def LongLived (tag : String) : Prop := tag = "latest" ∨ isVersionBranch isDecimal tag = true

instance : DecidablePred (LongLived isDecimal) := fun _ => inferInstanceAs (Decidable (_ ∨ _))

/-- The committed tables after a run, however it ends. -/
def SaveRun.after (db : Db) (run : SaveRun) : Db :=
  (exec (saveDappsCostReportToDb isDecimal run.reportData run.cmd)
    ⟨db, run.now, run.failing⟩).2.db

def saveStep (db : Db) (run : SaveRun) : Option Db := some (run.after isDecimal db)

def KeepsLongLived (db db' : Db) : Prop :=
  ∀ r ∈ db.reports, LongLived isDecimal r.tag → r ∈ db'.reports

instance : DecidableRel (KeepsLongLived isDecimal) :=
  fun db db' => inferInstanceAs (Decidable (∀ r ∈ db.reports, LongLived isDecimal r.tag →
    r ∈ db'.reports))

/-- A long-lived report is there in every later state. -/
def HistoryGrows (db : Db) (runs : List SaveRun) : Prop :=
  (states (saveStep isDecimal) db runs).Pairwise (KeepsLongLived isDecimal)

instance (db : Db) (runs : List SaveRun) : Decidable (HistoryGrows isDecimal db runs) :=
  inferInstanceAs (Decidable (List.Pairwise _ _))

/-- The deletion of the old reports is committed, if there are any to delete. -/
def SaveRun.PassesDeletion (run : SaveRun) : Prop :=
  (∃ rows, run.reportData = .ok rows) ∧
    run.failing ≠ some .deleteData ∧ run.failing ≠ some .deleteReports

/-- A run under a long-lived tag has it as both its tags, or finds nothing stored
under it, or stops before it has deleted anything. -/
def Spares (db : Db) (run : SaveRun) : Prop :=
  LongLived isDecimal run.cmd.tag → run.cmd.evmTag = run.cmd.proxyTag ∨
    db.selectedIds run.cmd.repo run.cmd.tag = [] ∨ ¬ run.PassesDeletion

end

variable {isDecimal : Char → Bool} {db : Db} {cmd : SaveCommand} {now : Nat} {r : CostReport}

-- ---------------------------------------------------------------------------
-- What one run leaves
-- ---------------------------------------------------------------------------

theorem tag_of_selected {repo : RepoType} {tag : String} (h : r.Selected repo tag) :
    r.tag = tag := by
  obtain ⟨rfl, htag⟩ := h
  exact htag

theorem mem_cleared (hr : r ∈ db.reports) : r ∈ (cleared isDecimal db cmd).reports ↔
    ¬ (Replaces isDecimal db cmd ∧ r.Selected cmd.repo cmd.tag) := by
  unfold cleared
  split
  · rename_i hrep
    simp [Db.without, hr, hrep, mem_selectedIds hr]
  · rename_i hrep
    simp [hr, hrep]

/-- The new report takes an id that none of the stored ones has. -/
theorem mem_withReport (hr : r ∈ db.reports) : r ∈ (withReport isDecimal db cmd now).reports ↔
    ¬ (Replaces isDecimal db cmd ∧ r.Selected cmd.repo cmd.tag) := by
  rw [← mem_cleared hr, withReport, Db.insertReport, List.mem_append, List.mem_singleton]
  refine or_iff_left ?_
  intro heq
  have hlt : r.id < db.nextReportId := db.reports_lt r hr
  rw [heq, nextReportId_cleared] at hlt
  exact Nat.lt_irrefl _ hlt

/-- A refused run, by the step that was refused. -/
theorem mem_stateBefore (hr : r ∈ db.reports) {st : DbStep} :
    r ∈ (stateBefore isDecimal db cmd now st).reports ↔
      ¬ ((st ≠ .deleteData ∧ st ≠ .deleteReports) ∧
        Replaces isDecimal db cmd ∧ r.Selected cmd.repo cmd.tag) := by
  cases st with
  | deleteData => simp [stateBefore, hr]
  | deleteReports => simp [stateBefore, Db.deleteData, hr]
  | insertReport => simp [stateBefore, mem_cleared hr]
  | insertData => simp [stateBefore, mem_withReport hr]

/-- **One run.** It loses the reports of its repo and compared tag, if it replaces
them and gets past the deletion, and no others. -/
theorem mem_reports_after (hr : r ∈ db.reports) (run : SaveRun) :
    r ∈ (run.after isDecimal db).reports ↔
      ¬ (run.PassesDeletion ∧ Replaces isDecimal db run.cmd ∧
        r.Selected run.cmd.repo run.cmd.tag) := by
  obtain ⟨cmd, reportData, now, failing⟩ := run
  rw [SaveRun.after, SaveRun.PassesDeletion]
  dsimp only
  cases reportData with
  | error e =>
    have hstop : exec (saveDappsCostReportToDb isDecimal (.error e) cmd) ⟨db, now, failing⟩ =
        (.error e, ⟨db, now, failing⟩) := rfl
    rw [hstop]
    simp [hr]
  | ok rows =>
    by_cases hplan : ∀ st ∈ plan isDecimal db cmd, failing ≠ some st
    · have hleft : r ∈ (exec (saveDappsCostReportToDb isDecimal (.ok rows) cmd)
          ⟨db, now, failing⟩).2.db.reports ↔
          r ∈ (withReport isDecimal db cmd now).reports := by
        rw [exec_save hplan]
        split <;> rfl
      have hpasses : Replaces isDecimal db cmd →
          failing ≠ some .deleteData ∧ failing ≠ some .deleteReports := by
        intro hrep
        rw [plan, if_pos hrep] at hplan
        exact ⟨hplan _ (by simp), hplan _ (by simp)⟩
      rw [hleft, mem_withReport hr]
      exact not_congr ⟨fun h => ⟨⟨⟨rows, rfl⟩, hpasses h.1⟩, h⟩, fun h => h.2⟩
    · push Not at hplan
      obtain ⟨st, hst, rfl⟩ := hplan
      rw [exec_save_stopped hst, mem_stateBefore hr]
      simp

-- ---------------------------------------------------------------------------
-- When a run spares the long-lived reports
-- ---------------------------------------------------------------------------

/-- Under a long-lived tag the command deletes unless both its tags are that tag. -/
theorem doDelete_iff (h : LongLived isDecimal cmd.tag) :
    cmd.doDelete isDecimal = true ↔ cmd.evmTag ≠ cmd.proxyTag := by
  rw [SaveCommand.doDelete]
  by_cases heq : cmd.evmTag = cmd.proxyTag
  · have htag : cmd.tag = cmd.proxyTag := by
      rw [SaveCommand.tag, heq, ite_self]
    rw [htag] at h
    rcases h with hlatest | hbranch
    · simp [heq, hlatest]
    · simp [heq, hbranch]
  · simp [heq]

theorem keeps_after_iff (run : SaveRun) :
    KeepsLongLived isDecimal db (run.after isDecimal db) ↔ Spares isDecimal db run := by
  constructor
  · intro hkeeps hlong
    by_contra hspares
    push Not at hspares
    obtain ⟨hne, hids, hpasses⟩ := hspares
    obtain ⟨id, hid⟩ := List.exists_mem_of_ne_nil _ hids
    obtain ⟨r, hmem, rfl⟩ := List.mem_map.mp hid
    obtain ⟨hr, hsel⟩ := List.mem_filter.mp hmem
    rw [decide_eq_true_iff] at hsel
    have hrep : Replaces isDecimal db run.cmd := ⟨(doDelete_iff hlong).mpr hne, hids⟩
    refine (mem_reports_after hr run).mp (hkeeps r hr ?_) ⟨hpasses, hrep, hsel⟩
    rwa [tag_of_selected hsel]
  · intro hspares r hr hlong
    rw [mem_reports_after hr]
    rintro ⟨hpasses, hrep, hsel⟩
    rw [tag_of_selected hsel] at hlong
    rcases hspares hlong with heq | hids | hstop
    · exact (doDelete_iff hlong).mp hrep.1 heq
    · exact hrep.2 hids
    · exact hstop hpasses

-- ---------------------------------------------------------------------------
-- Sequences of runs
-- ---------------------------------------------------------------------------

/-- **The history.** From any tables and over any sequence of runs, no report of a
long-lived branch is ever deleted if and only if every run spares them. -/
theorem history_grows_iff (isDecimal : Char → Bool) (db : Db) (runs : List SaveRun) :
    HistoryGrows isDecimal db runs ↔ Steps (saveStep isDecimal) (Spares isDecimal) db runs := by
  have htrans (a b c : Db) (hab : KeepsLongLived isDecimal a b)
      (hbc : KeepsLongLived isDecimal b c) : KeepsLongLived isDecimal a c := by
    intro r hr hlong
    exact hbc r (hab r hr hlong) hlong
  have hstep (db : Db) (run : SaveRun) :
      (∀ db' ∈ saveStep isDecimal db run, KeepsLongLived isDecimal db db') ↔
        Spares isDecimal db run := by
    rw [← keeps_after_iff]
    simp [saveStep]
  rw [HistoryGrows, pairwise_states_iff htrans]
  exact ⟨Steps.imp fun db run => (hstep db run).mp, Steps.imp fun db run => (hstep db run).mpr⟩

-- ---------------------------------------------------------------------------
-- A history deleted
-- ---------------------------------------------------------------------------

/-- A report of the development branch, stored by a merge. -/
def mergeToDevelop : SaveRun where
  cmd := {
    repo := .evm
    evmTag := "latest"
    proxyTag := "latest"
    evmCommitSha := "5d1c"
    proxyCommitSha := "88e0" }
  reportData := prepareReportData sampleChain asciiLower "reports" [swapReport ["Swap"]]
  now := 5
  failing := none

/-- The same branch against a proxy of a feature branch. -/
def againstFeature : SaveRun where
  cmd := {
    repo := .evm
    evmTag := "latest"
    proxyTag := "NDEV-1"
    evmCommitSha := "5d1c"
    proxyCommitSha := "41b7" }
  reportData := prepareReportData sampleChain asciiLower "reports" [swapReport ["Swap"]]
  now := 6
  failing := none

def emptyDb : Db where
  reports := []
  data := []
  nextReportId := 1
  reports_nodup := List.nodup_nil
  reports_lt := by simp
  data_refers := by simp

theorem history_shrinks :
    ¬ HistoryGrows Char.isDigit emptyDb [mergeToDevelop, againstFeature] := by
  decide

end NeonTests.ResultsDb
