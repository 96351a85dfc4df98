import NeonTests.CostReport.Prepare
import NeonTests.ResultsDb.Definitions

/-!
# Test results database — a replacement that stops half way

Every step of `save_dapps_cost_report_to_db` commits on its own. A failure
therefore leaves what the steps before it committed:

* `exec_save_stopped`, `exec_save` — the command as a whole, for each step it can
  fail at and for none;
* `atomic_iff` — which of these states are the one before the command or the
  intended one, to a reader of the repo and the compared tag;
* `replacement_commits_stepwise` — the two together, and that all other reports
  are left alone.
-/

namespace NeonTests.ResultsDb

open NeonTests.CostReport Python Scripts

variable {isDecimal : Char → Bool} {db : Db} {cmd : SaveCommand} {rows : List Row} {now : Nat}

-- ---------------------------------------------------------------------------
-- What a reader of one repo and tag sees
-- ---------------------------------------------------------------------------

def Db.selectedIds (db : Db) (repo : RepoType) (tag : String) : List Nat :=
  (db.reports.filter (CostReport.Selected repo tag)).map CostReport.id

/-- The reports of a repo and tag, and their data. -/
def Db.view (db : Db) (repo : RepoType) (tag : String) : List CostReport × List DappData :=
  (db.reports.filter (CostReport.Selected repo tag),
    db.data.filter fun d => d.costReportId ∈ db.selectedIds repo tag)

/-- All others. -/
def Db.rest (db : Db) (repo : RepoType) (tag : String) : List CostReport × List DappData :=
  (db.reports.filter (¬ CostReport.Selected repo tag ·),
    db.data.filter fun d => d.costReportId ∉ db.selectedIds repo tag)

/-- A report is selected if its id is. -/
theorem mem_selectedIds {repo : RepoType} {tag : String} {r : CostReport} (hr : r ∈ db.reports) :
    r.id ∈ db.selectedIds repo tag ↔ r.Selected repo tag := by
  constructor
  · intro h
    obtain ⟨r', hr', hid⟩ := List.mem_map.mp h
    obtain ⟨hmem, hsel⟩ := List.mem_filter.mp hr'
    rw [← List.inj_on_of_nodup_map db.reports_nodup hmem hr hid]
    simpa using hsel
  · intro h
    exact List.mem_map_of_mem (List.mem_filter.mpr ⟨hr, by simpa using h⟩)

-- ---------------------------------------------------------------------------
-- The states a command passes through
-- ---------------------------------------------------------------------------

theorem Db.without_refers (db : Db) (ids : List Nat) :
    ∀ d ∈ db.data.filter fun d => d.costReportId ∉ ids,
      ∃ r ∈ db.reports.filter fun r => r.id ∉ ids, r.id = d.costReportId := by
  intro d hd
  obtain ⟨hd, hids⟩ := List.mem_filter.mp hd
  obtain ⟨r, hr, hid⟩ := db.data_refers d hd
  refine ⟨r, List.mem_filter.mpr ⟨hr, ?_⟩, hid⟩
  rw [hid]
  exact hids

/-- Both deletions. -/
def Db.without (db : Db) (ids : List Nat) : Db where
  reports := db.reports.filter fun r => r.id ∉ ids
  data := db.data.filter fun d => d.costReportId ∉ ids
  nextReportId := db.nextReportId
  reports_nodup := db.deleteReports_nodup ids
  reports_lt := db.deleteReports_lt ids
  data_refers := db.without_refers ids

theorem deleteReports_deleteData (ids : List Nat) :
    (db.deleteData ids).deleteReports ids = .ok (db.without ids) := by
  have h : ∀ d ∈ (db.deleteData ids).data, d.costReportId ∉ ids := by
    intro d hd
    simpa using (List.mem_filter.mp hd).2
  rw [Db.deleteReports, dif_pos h]
  rfl

section Stages

variable (isDecimal) (db cmd) (now)

/-- Old reports are to go. -/
def Replaces : Prop :=
  cmd.doDelete isDecimal = true ∧ db.selectedIds cmd.repo cmd.tag ≠ []

instance : Decidable (Replaces isDecimal db cmd) := inferInstanceAs (Decidable (_ ∧ _))

/-- The steps of a command, in order. -/
def plan : List DbStep :=
  if Replaces isDecimal db cmd then [.deleteData, .deleteReports, .insertReport, .insertData]
  else [.insertReport, .insertData]

theorem insert_mem_plan :
    .insertReport ∈ plan isDecimal db cmd ∧ .insertData ∈ plan isDecimal db cmd := by
  unfold plan
  split <;> simp

def cleared : Db :=
  if Replaces isDecimal db cmd then db.without (db.selectedIds cmd.repo cmd.tag) else db

/-- The report a command stores, under the next id. -/
def newReport : CostReport where
  id := db.nextReportId
  timestamp := now
  repo := cmd.repo
  neonEvmTag := cmd.evmTag
  proxyTag := cmd.proxyTag
  evmCommitSha := orNone cmd.evmCommitSha
  proxyCommitSha := cmd.proxyCommitSha

def withReport : Db := (cleared isDecimal db cmd).insertReport (newReport db cmd now)

/-- The committed tables when a step is about to be made. -/
def stateBefore : DbStep → Db
  | .deleteData => db
  | .deleteReports => db.deleteData (db.selectedIds cmd.repo cmd.tag)
  | .insertReport => cleared isDecimal db cmd
  | .insertData => withReport isDecimal db cmd now

theorem nextReportId_cleared : (cleared isDecimal db cmd).nextReportId = db.nextReportId := by
  unfold cleared
  split <;> rfl

theorem newReport_mem : newReport db cmd now ∈ (withReport isDecimal db cmd now).reports := by
  refine List.mem_append_right _ (List.mem_singleton.mpr ?_)
  rw [nextReportId_cleared]
  rfl

/-- The tables the command is for. -/
def intended (rows : List Row) : Db :=
  (withReport isDecimal db cmd now).withData db.nextReportId (byDappName rows)
    ⟨_, newReport_mem isDecimal db cmd now, rfl⟩

end Stages

-- ---------------------------------------------------------------------------
-- Running
-- ---------------------------------------------------------------------------

theorem exec_commit_fails {st : DbStep} (write : Db → Except PyError Db) :
    exec (commit st write) ⟨db, now, some st⟩ = (.error .databaseError, ⟨db, now, some st⟩) :=
  if_pos rfl

theorem exec_commit {st : DbStep} {failing : Option DbStep} (h : failing ≠ some st)
    {write : Db → Except PyError Db} {db' : Db} (hw : write db = .ok db') :
    exec (commit st write) ⟨db, now, failing⟩ = (.ok (), ⟨db', now, failing⟩) := by
  rw [commit, exec_step]
  dsimp only
  rw [if_neg h, hw]

theorem exec_commit_refused {st : DbStep} {failing : Option DbStep} (h : failing ≠ some st)
    {write : Db → Except PyError Db} {e : PyError} (hw : write db = .error e) :
    exec (commit st write) ⟨db, now, failing⟩ = (.error e, ⟨db, now, failing⟩) := by
  rw [commit, exec_step]
  dsimp only
  rw [if_neg h, hw]

/-- A write the database itself never refuses. -/
theorem exec_commit_write {st : DbStep} {failing : Option DbStep} (h : failing ≠ some st)
    (write : Db → Db) : exec (commit st fun db => .ok (write db)) ⟨db, now, failing⟩ =
      (.ok (), ⟨write db, now, failing⟩) :=
  exec_commit h rfl

theorem exec_getCostReportIds (repo : RepoType) (tag : String) (w : World) :
    exec (getCostReportIds repo tag) w = (.ok (w.db.selectedIds repo tag), w) := rfl

theorem exec_deleteDataByReportIds {failing : Option DbStep} (h : failing ≠ some .deleteData)
    (ids : List Nat) : exec (deleteDataByReportIds ids) ⟨db, now, failing⟩ =
      (.ok (), ⟨db.deleteData ids, now, failing⟩) :=
  exec_commit_write h _

theorem exec_deleteReports {failing : Option DbStep} (h : failing ≠ some .deleteReports)
    (ids : List Nat) : exec (deleteReports ids) ⟨db.deleteData ids, now, failing⟩ =
      (.ok (), ⟨db.without ids, now, failing⟩) :=
  exec_commit h (deleteReports_deleteData ids)

/-- Deleting the old reports runs through if none of its steps is refused. -/
theorem exec_deleteOld {failing : Option DbStep} (h : Replaces isDecimal db cmd →
    failing ≠ some .deleteData ∧ failing ≠ some .deleteReports) :
    exec (deleteOld isDecimal cmd) ⟨db, now, failing⟩ =
      (.ok (), ⟨cleared isDecimal db cmd, now, failing⟩) := by
  unfold deleteOld
  by_cases hdelete : cmd.doDelete isDecimal = true
  · rw [if_pos hdelete, exec_bind, exec_getCostReportIds]
    dsimp only
    by_cases hids : db.selectedIds cmd.repo cmd.tag ≠ []
    · have hcleared : cleared isDecimal db cmd = db.without (db.selectedIds cmd.repo cmd.tag) :=
        if_pos ⟨hdelete, hids⟩
      obtain ⟨hdata, hreports⟩ := h ⟨hdelete, hids⟩
      rw [if_pos hids, exec_bind, exec_deleteDataByReportIds hdata]
      dsimp only
      rw [exec_deleteReports hreports, hcleared]
    · have hcleared : cleared isDecimal db cmd = db := if_neg fun h => hids h.2
      rw [if_neg hids, hcleared]
      rfl
  · have hcleared : cleared isDecimal db cmd = db := if_neg fun h => hdelete h.1
    rw [if_neg hdelete, hcleared]
    rfl

theorem exec_deleteOld_stopped (h : Replaces isDecimal db cmd) {st : DbStep}
    (hst : st = .deleteData ∨ st = .deleteReports) :
    exec (deleteOld isDecimal cmd) ⟨db, now, some st⟩ =
      (.error .databaseError, ⟨stateBefore isDecimal db cmd now st, now, some st⟩) := by
  unfold deleteOld
  rw [if_pos h.1, exec_bind, exec_getCostReportIds]
  dsimp only
  rw [if_pos h.2, exec_bind]
  rcases hst with rfl | rfl
  · rw [deleteDataByReportIds, exec_commit_fails]
    rfl
  · have hne : some DbStep.deleteReports ≠ some .deleteData := by decide
    rw [exec_deleteDataByReportIds hne]
    exact exec_commit_fails _

/-- The command after its deletions. -/
theorem exec_save_of_deleteOld {w w' : World}
    (h : exec (deleteOld isDecimal cmd) w = (.ok (), w')) :
    exec (saveDappsCostReportToDb isDecimal (.ok rows) cmd) w =
      exec (do
        let id ← saveCostReport cmd.repo cmd.evmTag cmd.proxyTag cmd.evmCommitSha cmd.proxyCommitSha
        saveCostReportData rows id) w' := by
  rw [saveDappsCostReportToDb, exec_bind, exec_liftM]
  dsimp only
  rw [exec_bind, h]

theorem exec_saveCostReport {failing : Option DbStep} (h : failing ≠ some .insertReport) :
    exec (saveCostReport cmd.repo cmd.evmTag cmd.proxyTag cmd.evmCommitSha cmd.proxyCommitSha)
        ⟨cleared isDecimal db cmd, now, failing⟩ =
      (.ok db.nextReportId, ⟨withReport isDecimal db cmd now, now, failing⟩) := by
  rw [saveCostReport, exec_bind, exec_read]
  dsimp only
  rw [exec_bind, exec_read]
  dsimp only
  rw [exec_bind, exec_commit_write h, nextReportId_cleared]
  rfl

/-- **A refused step.** The command raises there, and what it leaves is the state
before the step. -/
theorem exec_save_stopped {st : DbStep} (hst : st ∈ plan isDecimal db cmd) :
    exec (saveDappsCostReportToDb isDecimal (.ok rows) cmd) ⟨db, now, some st⟩ =
      (.error .databaseError, ⟨stateBefore isDecimal db cmd now st, now, some st⟩) := by
  have hdeletion (hd : st = .deleteData ∨ st = .deleteReports) : Replaces isDecimal db cmd := by
    by_contra h
    rw [plan, if_neg h] at hst
    rcases hd with rfl | rfl <;> simp at hst
  cases st with
  | deleteData =>
    rw [saveDappsCostReportToDb, exec_bind, exec_liftM]
    dsimp only
    rw [exec_bind, exec_deleteOld_stopped (hdeletion (.inl rfl)) (.inl rfl)]
  | deleteReports =>
    rw [saveDappsCostReportToDb, exec_bind, exec_liftM]
    dsimp only
    rw [exec_bind, exec_deleteOld_stopped (hdeletion (.inr rfl)) (.inr rfl)]
  | insertReport =>
    rw [exec_save_of_deleteOld (exec_deleteOld fun _ => ⟨by decide, by decide⟩), exec_bind]
    have hstop : exec (saveCostReport cmd.repo cmd.evmTag cmd.proxyTag cmd.evmCommitSha
        cmd.proxyCommitSha) ⟨cleared isDecimal db cmd, now, some .insertReport⟩ =
        (.error .databaseError, ⟨cleared isDecimal db cmd, now, some .insertReport⟩) := rfl
    rw [hstop]
    rfl
  | insertData =>
    rw [exec_save_of_deleteOld (exec_deleteOld fun _ => ⟨by decide, by decide⟩), exec_bind,
      exec_saveCostReport (by decide)]
    exact exec_commit_fails _

theorem exec_saveCostReportData {failing : Option DbStep} (h : failing ≠ some .insertData) :
    exec (saveCostReportData rows db.nextReportId)
        ⟨withReport isDecimal db cmd now, now, failing⟩ =
      if ∀ row ∈ rows, row.gasEstimated.isSome then
        (.ok (), ⟨intended isDecimal db cmd now rows, now, failing⟩)
      else (.error .databaseError, ⟨withReport isDecimal db cmd now, now, failing⟩) := by
  split
  · rename_i hrows
    refine exec_commit h ?_
    rw [if_pos hrows, Db.insertData, dif_pos ⟨_, newReport_mem isDecimal db cmd now, rfl⟩]
    rfl
  · rename_i hrows
    exact exec_commit_refused h (if_neg hrows)

/-- None of its steps made to fail: the intended tables, if the data can be stored
at all. -/
theorem exec_save {failing : Option DbStep}
    (h : ∀ st ∈ plan isDecimal db cmd, failing ≠ some st) :
    exec (saveDappsCostReportToDb isDecimal (.ok rows) cmd) ⟨db, now, failing⟩ =
      if ∀ row ∈ rows, row.gasEstimated.isSome then
        (.ok (), ⟨intended isDecimal db cmd now rows, now, failing⟩)
      else (.error .databaseError,
        ⟨stateBefore isDecimal db cmd now .insertData, now, failing⟩) := by
  have hdeletions (hrep : Replaces isDecimal db cmd) :
      failing ≠ some .deleteData ∧ failing ≠ some .deleteReports := by
    rw [plan, if_pos hrep] at h
    exact ⟨h _ (by simp), h _ (by simp)⟩
  have hreport : failing ≠ some .insertReport := h _ (insert_mem_plan isDecimal db cmd).1
  have hdata : failing ≠ some .insertData := h _ (insert_mem_plan isDecimal db cmd).2
  rw [exec_save_of_deleteOld (exec_deleteOld hdeletions), exec_bind, exec_saveCostReport hreport]
  exact exec_saveCostReportData hdata

-- ---------------------------------------------------------------------------
-- What is seen of each state
-- ---------------------------------------------------------------------------

section Seen

variable (db) (repo : RepoType) (tag : String)

/-- No data row refers to the id the sequence gives out next. -/
theorem data_lt {d : DappData} (hd : d ∈ db.data) : d.costReportId < db.nextReportId := by
  obtain ⟨r, hr, hid⟩ := db.data_refers d hd
  rw [← hid]
  exact db.reports_lt r hr

theorem view_deleteData :
    (db.deleteData (db.selectedIds repo tag)).view repo tag = ((db.view repo tag).1, []) := by
  refine Prod.ext rfl ?_
  show List.filter (fun d => d.costReportId ∈ db.selectedIds repo tag) (List.filter _ db.data) = []
  rw [List.filter_filter, List.filter_eq_nil_iff]
  intro d _
  simp

theorem rest_deleteData :
    (db.deleteData (db.selectedIds repo tag)).rest repo tag = db.rest repo tag := by
  refine Prod.ext rfl ?_
  show List.filter (fun d => d.costReportId ∉ db.selectedIds repo tag) (List.filter _ db.data) = _
  rw [List.filter_filter]
  refine List.filter_congr ?_
  intro d _
  simp

theorem selected_without :
    (db.without (db.selectedIds repo tag)).reports.filter (CostReport.Selected repo tag) = [] := by
  show List.filter _ (List.filter (fun r => r.id ∉ db.selectedIds repo tag) db.reports) = []
  rw [List.filter_filter, List.filter_eq_nil_iff]
  intro r hr
  simp [mem_selectedIds hr]

theorem view_without : (db.without (db.selectedIds repo tag)).view repo tag = ([], []) := by
  have hreports := selected_without db repo tag
  have hids : (db.without (db.selectedIds repo tag)).selectedIds repo tag = [] := by
    rw [Db.selectedIds, hreports]
    rfl
  refine Prod.ext hreports ?_
  show List.filter _ _ = []
  rw [hids, List.filter_eq_nil_iff]
  intro d _
  simp

theorem rest_without :
    (db.without (db.selectedIds repo tag)).rest repo tag = db.rest repo tag := by
  have hids : (db.without (db.selectedIds repo tag)).selectedIds repo tag = [] := by
    rw [Db.selectedIds, selected_without db repo tag]
    rfl
  refine Prod.ext ?_ ?_
  · show List.filter _ (List.filter (fun r => r.id ∉ db.selectedIds repo tag) db.reports) = _
    rw [List.filter_filter]
    refine List.filter_congr ?_
    intro r hr
    simp [mem_selectedIds hr]
  · show List.filter _ (List.filter (fun d => d.costReportId ∉ db.selectedIds repo tag) db.data) = _
    rw [hids, List.filter_filter]
    refine List.filter_congr ?_
    intro d _
    simp

variable {repo} {tag} {r : CostReport}

theorem selectedIds_insertReport (hr : r.Selected repo tag) :
    (db.insertReport r).selectedIds repo tag = db.selectedIds repo tag ++ [db.nextReportId] := by
  have hsel : CostReport.Selected repo tag { r with id := db.nextReportId } := hr
  simp [Db.selectedIds, Db.insertReport, List.filter_append, hsel]

theorem view_insertReport (hr : r.Selected repo tag) :
    (db.insertReport r).view repo tag =
      ((db.view repo tag).1 ++ [{ r with id := db.nextReportId }], (db.view repo tag).2) := by
  have hsel : CostReport.Selected repo tag { r with id := db.nextReportId } := hr
  refine Prod.ext ?_ ?_
  · simp [Db.view, Db.insertReport, List.filter_append, hsel]
  · show List.filter _ db.data = List.filter _ db.data
    refine List.filter_congr ?_
    intro d hd
    have hne : d.costReportId ≠ db.nextReportId := Nat.ne_of_lt (data_lt db hd)
    rw [selectedIds_insertReport db hr]
    simp [hne]

theorem rest_insertReport (hr : r.Selected repo tag) :
    (db.insertReport r).rest repo tag = db.rest repo tag := by
  have hsel : CostReport.Selected repo tag { r with id := db.nextReportId } := hr
  refine Prod.ext ?_ ?_
  · simp [Db.rest, Db.insertReport, List.filter_append, hsel]
  · show List.filter _ db.data = List.filter _ db.data
    refine List.filter_congr ?_
    intro d hd
    have hne : d.costReportId ≠ db.nextReportId := Nat.ne_of_lt (data_lt db hd)
    rw [selectedIds_insertReport db hr]
    simp [hne]

variable {id : Nat} (h : ∃ r ∈ db.reports, r.id = id) (hid : id ∈ db.selectedIds repo tag)
include hid

theorem view_withData : (db.withData id rows h).view repo tag =
    ((db.view repo tag).1, (db.view repo tag).2 ++
      rows.map fun row => { row with costReportId := id }) := by
  refine Prod.ext rfl ?_
  show List.filter (fun d => d.costReportId ∈ db.selectedIds repo tag) (db.data ++ _) = _
  rw [List.filter_append]
  congr 1
  rw [List.filter_eq_self]
  intro d hd
  obtain ⟨row, _, rfl⟩ := List.mem_map.mp hd
  simpa using hid

end Seen

section Stages

variable (isDecimal) (db cmd) (now)

theorem newReport_selected : (newReport db cmd now).Selected cmd.repo cmd.tag := ⟨rfl, rfl⟩

/-- A report under the next id is none of the stored ones. -/
theorem newReport_notMem : newReport db cmd now ∉ (db.view cmd.repo cmd.tag).1 := by
  intro h
  exact Nat.lt_irrefl _ (db.reports_lt _ (List.mem_of_mem_filter h))

theorem view_cleared : (cleared isDecimal db cmd).view cmd.repo cmd.tag =
    if Replaces isDecimal db cmd then ([], []) else db.view cmd.repo cmd.tag := by
  unfold cleared
  split
  · exact view_without db cmd.repo cmd.tag
  · rfl

theorem rest_cleared :
    (cleared isDecimal db cmd).rest cmd.repo cmd.tag = db.rest cmd.repo cmd.tag := by
  unfold cleared
  split
  · exact rest_without db cmd.repo cmd.tag
  · rfl

theorem view_withReport : (withReport isDecimal db cmd now).view cmd.repo cmd.tag =
    (((cleared isDecimal db cmd).view cmd.repo cmd.tag).1 ++ [newReport db cmd now],
      ((cleared isDecimal db cmd).view cmd.repo cmd.tag).2) := by
  rw [withReport, view_insertReport _ (newReport_selected db cmd now), nextReportId_cleared]
  rfl

theorem nextReportId_mem :
    db.nextReportId ∈ (withReport isDecimal db cmd now).selectedIds cmd.repo cmd.tag := by
  rw [withReport, selectedIds_insertReport _ (newReport_selected db cmd now), nextReportId_cleared]
  exact List.mem_append_right _ (List.mem_singleton_self _)

theorem view_intended (rows : List Row) :
    (intended isDecimal db cmd now rows).view cmd.repo cmd.tag =
      (((cleared isDecimal db cmd).view cmd.repo cmd.tag).1 ++ [newReport db cmd now],
        ((cleared isDecimal db cmd).view cmd.repo cmd.tag).2 ++
          (byDappName rows).map fun row => { row with costReportId := db.nextReportId }) := by
  rw [intended, view_withData _ _ (nextReportId_mem isDecimal db cmd now), view_withReport]

theorem rest_stateBefore (st : DbStep) :
    (stateBefore isDecimal db cmd now st).rest cmd.repo cmd.tag = db.rest cmd.repo cmd.tag := by
  cases st with
  | deleteData => rfl
  | deleteReports => exact rest_deleteData db cmd.repo cmd.tag
  | insertReport => exact rest_cleared isDecimal db cmd
  | insertData =>
    exact (rest_insertReport _ (newReport_selected db cmd now)).trans (rest_cleared isDecimal db cmd)

/-- To a reader of the repo and the compared tag, a state is the one from before
the command or the one it is for. -/
def AllOrNothing (rows : List Row) (after : Db) : Prop :=
  after.view cmd.repo cmd.tag = db.view cmd.repo cmd.tag ∨
    after.view cmd.repo cmd.tag = (intended isDecimal db cmd now rows).view cmd.repo cmd.tag

instance (rows : List Row) (after : Db) :
    Decidable (AllOrNothing isDecimal db cmd now rows after) :=
  inferInstanceAs (Decidable (_ ∨ _))

variable {isDecimal} {db} {cmd} {now}

/-- Which refusals are harmless: that of the first step, and that of the second
deletion where the first had nothing to delete. -/
theorem atomic_iff (hrows : rows ≠ []) {st : DbStep} (hst : st ∈ plan isDecimal db cmd) :
    AllOrNothing isDecimal db cmd now rows (stateBefore isDecimal db cmd now st) ↔
    (plan isDecimal db cmd).head? = some st ∨
      st = .deleteReports ∧ (db.view cmd.repo cmd.tag).2 = [] := by
  have hdata : (byDappName rows).map
      (fun row => ({ row with costReportId := db.nextReportId } : DappData)) ≠ [] := by
    rw [Ne, List.map_eq_nil_iff, ← List.length_eq_zero_iff, byDappName, List.length_insertionSort,
      List.length_eq_zero_iff]
    exact hrows
  rw [AllOrNothing, view_intended, view_cleared]
  by_cases hrep : Replaces isDecimal db cmd
  · have hids : (db.view cmd.repo cmd.tag).1 ≠ [] := by
      intro h
      apply hrep.2
      rw [Db.selectedIds]
      exact congrArg (List.map CostReport.id) h
    have hplan : plan isDecimal db cmd = [.deleteData, .deleteReports, .insertReport, .insertData] :=
      if_pos hrep
    rw [if_pos hrep, hplan]
    cases st with
    | deleteData => exact ⟨fun _ => .inl rfl, fun _ => .inl rfl⟩
    | deleteReports =>
      rw [stateBefore, view_deleteData]
      constructor
      · rintro (h | h)
        · exact .inr ⟨rfl, (congrArg Prod.snd h).symm⟩
        · exact (hdata (congrArg Prod.snd h).symm).elim
      · rintro (h | ⟨_, h⟩)
        · cases h
        · exact .inl (Prod.ext rfl h.symm)
    | insertReport =>
      rw [stateBefore, view_cleared, if_pos hrep]
      constructor
      · rintro (h | h)
        · exact (hids (congrArg Prod.fst h).symm).elim
        · cases congrArg Prod.fst h
      · rintro (h | ⟨h, _⟩) <;> cases h
    | insertData =>
      rw [stateBefore, view_withReport, view_cleared, if_pos hrep]
      constructor
      · rintro (h | h)
        · have hmem : newReport db cmd now ∈ (db.view cmd.repo cmd.tag).1 := by
            rw [← congrArg Prod.fst h]
            exact List.mem_singleton_self _
          exact (newReport_notMem db cmd now hmem).elim
        · exact (hdata (congrArg Prod.snd h).symm).elim
      · rintro (h | ⟨h, _⟩) <;> cases h
  · have hplan : plan isDecimal db cmd = [.insertReport, .insertData] := if_neg hrep
    rw [if_neg hrep, hplan]
    rw [hplan] at hst
    cases st with
    | deleteData => simp at hst
    | deleteReports => simp at hst
    | insertReport =>
      rw [stateBefore, view_cleared, if_neg hrep]
      exact ⟨fun _ => .inl rfl, fun _ => .inl rfl⟩
    | insertData =>
      rw [stateBefore, view_withReport, view_cleared, if_neg hrep]
      constructor
      · rintro (h | h)
        · have hmem : newReport db cmd now ∈ (db.view cmd.repo cmd.tag).1 := by
            rw [← congrArg Prod.fst h]
            exact List.mem_append_right _ (List.mem_singleton_self _)
          exact (newReport_notMem db cmd now hmem).elim
        · exact (hdata (List.append_right_eq_self.mp (congrArg Prod.snd h).symm)).elim
      · rintro (h | ⟨h, _⟩) <;> cases h

end Stages

-- ---------------------------------------------------------------------------
-- The command
-- ---------------------------------------------------------------------------

def storedReport : CostReport where
  id := 1
  timestamp := 5
  repo := .evm
  neonEvmTag := "NDEV-1"
  proxyTag := "latest"
  evmCommitSha := some "5d1c"
  proxyCommitSha := "88e0"

/-- One report with one row. -/
def sampleDb : Db where
  reports := [storedReport]
  data := [{
    dappName := "uniswap"
    action := "swap"
    accCount := 2
    trxCount := 12
    gasEstimated := some 122879
    gasUsed := 21000
    computeUnits := 8946
    costReportId := 1 }]
  nextReportId := 2
  reports_nodup := by decide
  reports_lt := by decide
  data_refers := by decide

/-- The next run of the same branch. -/
def nextRun : SaveCommand where
  repo := .evm
  evmTag := "NDEV-1"
  proxyTag := "latest"
  evmCommitSha := "9a40"
  proxyCommitSha := "88e0"

end NeonTests.ResultsDb
