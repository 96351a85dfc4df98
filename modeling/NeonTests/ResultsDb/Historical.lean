import NeonTests.Lib.Join
import NeonTests.ResultsDb.Tags

/-!
# Test results database — the history a report is compared with

What `get_historical_data` selects, for the tags its caller asks for.

* `IsNewest`, `Db.others` — the compared report, and the ones it may be compared with;
* `getHistoricalData_eq` — the offset of the query leaves exactly the newest report out;
* `getHistoricalData_spec` — the rows: all of the newest report's, and of the others' those
  whose dApp and whose action the newest report has, be it in two different rows.
-/

namespace NeonTests.ResultsDb

open Fallible Python Ranking

-- ---------------------------------------------------------------------------
-- The reports of a history
-- ---------------------------------------------------------------------------

def DistinctTimestamps (db : Db) : Prop := (db.reports.map CostReport.timestamp).Nodup

instance (db : Db) : Decidable (DistinctTimestamps db) := inferInstanceAs (Decidable (List.Nodup _))

/-- No two reports under a tag are of one time. -/
def DistinctUnder (db : Db) (repo : RepoType) (tag : String) : Prop :=
  ((db.reports.filter (CostReport.Selected repo tag)).map CostReport.timestamp).Nodup

instance (db : Db) (repo : RepoType) (tag : String) : Decidable (DistinctUnder db repo tag) :=
  inferInstanceAs (Decidable (List.Nodup _))

/-- The newest report stored under a tag. -/
structure IsNewest (db : Db) (repo : RepoType) (tag : String) (last : CostReport) : Prop where
  mem : last ∈ db.reports
  selected : last.Selected repo tag
  newest : ∀ r ∈ db.reports, r.Selected repo tag → r ≠ last → r.timestamp < last.timestamp

/-- The reports under one of the tags, other than the last one. -/
def Db.others (db : Db) (repo : RepoType) (previousTags : List String) (last : CostReport) :
    List CostReport :=
  db.reports.filter fun r => (r.repo = repo ∧ tagColumn repo r ∈ previousTags) ∧ r ≠ last

/-- The newest `depth - 1` of them. -/
def Db.olderReports (db : Db) (repo : RepoType) (previousTags : List String) (last : CostReport)
    (depth : Nat) : List CostReport :=
  (byNewest (db.others repo previousTags last)).take (depth - 1)

/-- The sorted rows of the last report and of these. -/
def Db.history (db : Db) (repo : RepoType) (previousTags : List String) (last : CostReport)
    (depth : Nat) : List HistoryRow :=
  sortValues (historyOf db repo last (db.olderReports repo previousTags last depth))

/-- The tags `compare_dapp_results` asks for: one of a branch, or releases below the compared
one. -/
inductive CallerTags (latestTag : String) : List String → Prop
  | single (tag : String) : CallerTags latestTag [tag]
  | releases (tags : List String) (n : ReleaseNumber) (hlatest : releaseNumber latestTag = some n)
      (hlower : ∀ t ∈ tags, ∃ m, releaseNumber t = some m ∧ m < n) : CallerTags latestTag tags

variable {db : Db} {repo : RepoType} {latestTag : String} {previousTags : List String}
  {last r : CostReport} {depth : Nat}

/-- A tag compared with itself is compared with nothing else. -/
theorem CallerTags.eq_singleton (h : CallerTags latestTag previousTags)
    (hmem : latestTag ∈ previousTags) : previousTags = [latestTag] := by
  cases h with
  | single tag => rw [List.mem_singleton.mp hmem]
  | releases _ n hlatest hlower =>
    obtain ⟨m, hm, hlt⟩ := hlower latestTag hmem
    rw [hlatest, Option.some.injEq] at hm
    exact absurd hlt (by rw [hm]; exact lt_irrefl m)

theorem reports_nodup (db : Db) : db.reports.Nodup := List.Nodup.of_map _ db.reports_nodup

theorem DistinctTimestamps.under (h : DistinctTimestamps db) (repo : RepoType) (tag : String) :
    DistinctUnder db repo tag :=
  h.sublist (List.filter_sublist.map _)

theorem DistinctUnder.eq_of_le {tag : String} (h : DistinctUnder db repo tag) {r' : CostReport}
    (hr : r ∈ db.reports) (hselected : r.Selected repo tag) (hr' : r' ∈ db.reports)
    (hselected' : r'.Selected repo tag) (hle : r.timestamp ≤ r'.timestamp)
    (hge : r'.timestamp ≤ r.timestamp) : r = r' := by
  refine List.inj_on_of_nodup_map h ?_ ?_ (le_antisymm hle hge)
  · exact List.mem_filter.mpr ⟨hr, decide_eq_true hselected⟩
  · exact List.mem_filter.mpr ⟨hr', decide_eq_true hselected'⟩

theorem selected_iff {tag : String} :
    r.Selected repo tag ↔ r.repo = repo ∧ tagColumn repo r = tag :=
  Iff.rfl

theorem mem_olderReports (h : r ∈ db.olderReports repo previousTags last depth) :
    r ∈ db.others repo previousTags last :=
  mem_ranked.mp (List.mem_of_mem_take h)

theorem mem_reports_of_older (hr : r ∈ db.olderReports repo previousTags last depth) :
    r ∈ db.reports ∧ r.repo = repo ∧ tagColumn repo r ∈ previousTags := by
  obtain ⟨hmem, hcond⟩ := List.mem_filter.mp (mem_olderReports hr)
  exact ⟨hmem, (of_decide_eq_true hcond).1⟩

/-- The older reports under one tag. -/
theorem selected_of_older (hr : r ∈ db.olderReports repo [latestTag] last depth) :
    r ∈ db.reports ∧ r.Selected repo latestTag ∧ r ≠ last := by
  obtain ⟨hmem, hrepo, htag⟩ := mem_reports_of_older hr
  have hcond := (List.mem_filter.mp (mem_olderReports hr)).2
  exact ⟨hmem, ⟨hrepo, List.mem_singleton.mp htag⟩, (of_decide_eq_true hcond).2⟩

/-- Taking the last report away from a query leaves the others. -/
theorem others_eq_erase (db : Db) (repo : RepoType) (previousTags : List String)
    (last : CostReport) :
    (db.reports.filter fun r => r.repo = repo ∧ tagColumn repo r ∈ previousTags).erase last =
      db.others repo previousTags last := by
  rw [((reports_nodup db).filter _).erase_eq_filter, List.filter_filter, Db.others]
  refine List.filter_congr fun r _ => ?_
  rw [Bool.eq_iff_iff]
  simp [and_comm]

/-- The newest of the reports under the compared tag comes first. -/
theorem byNewest_selected (hlast : IsNewest db repo latestTag last) :
    byNewest (db.reports.filter (CostReport.Selected repo latestTag)) =
      last :: byNewest (db.others repo [latestTag] last) := by
  have hquery : db.reports.filter (CostReport.Selected repo latestTag) =
      db.reports.filter fun r => r.repo = repo ∧ tagColumn repo r ∈ [latestTag] := by
    refine List.filter_congr fun r _ => ?_
    simp [selected_iff]
  rw [← others_eq_erase, ← hquery]
  refine ranked_eq_cons ?_ ?_
  · exact List.mem_filter.mpr ⟨hlast.mem, decide_eq_true hlast.selected⟩
  · intro y hy hne
    obtain ⟨hy, hselected⟩ := List.mem_filter.mp hy
    exact hlast.newest y hy (of_decide_eq_true hselected) hne

theorem exists_newest (hdistinct : DistinctUnder db repo latestTag)
    (h : ∃ r ∈ db.reports, r.Selected repo latestTag) :
    ∃ last, IsNewest db repo latestTag last := by
  obtain ⟨r, hr, hselected⟩ := h
  have hfound : ∀ y, y ∈ byNewest (db.reports.filter (CostReport.Selected repo latestTag)) ↔
      y ∈ db.reports ∧ y.Selected repo latestTag := by
    intro y
    simp [byNewest, mem_ranked]
  have hsorted : (byNewest (db.reports.filter (CostReport.Selected repo latestTag))).Pairwise
      fun a b => b.timestamp ≤ a.timestamp := pairwise_ranked _
  generalize byNewest (db.reports.filter (CostReport.Selected repo latestTag)) = found
    at hfound hsorted
  cases found with
  | nil => exact absurd ((hfound r).mpr ⟨hr, hselected⟩) List.not_mem_nil
  | cons last rest =>
    obtain ⟨hmem, hlast⟩ := (hfound last).mp List.mem_cons_self
    refine ⟨last, hmem, hlast, ?_⟩
    intro y hy hselected hne
    have hrest : y ∈ rest :=
      (List.mem_cons.mp ((hfound y).mpr ⟨hy, hselected⟩)).resolve_left hne
    refine lt_of_le_of_ne ((List.pairwise_cons.mp hsorted).1 y hrest) fun heq => hne ?_
    exact hdistinct.eq_of_le hy hselected hmem hlast heq.le heq.ge

-- ---------------------------------------------------------------------------
-- The rows of a history
-- ---------------------------------------------------------------------------

/-- The dApps of a report. -/
def Db.dapps (db : Db) (r : CostReport) : List String := (db.rowsOf r).map fun d => d.dappName

/-- The actions of a report, whichever dApp they belong to. -/
def Db.actions (db : Db) (r : CostReport) : List String := (db.rowsOf r).map fun d => d.action

/-- The rows of a report that have a dApp and an action of the last one. -/
def Db.sharedRows (db : Db) (last r : CostReport) : List DappData :=
  (db.rowsOf r).filter fun d => d.dappName ∈ db.dapps last ∧ d.action ∈ db.actions last

/-- The query's two offsets, with and without a merge event. -/
theorem getHistoricalData_eq (hlast : IsNewest db repo latestTag last) (hdepth : 1 ≤ depth)
    (hself : latestTag ∈ previousTags → previousTags = [latestTag]) :
    getHistoricalData db depth repo latestTag previousTags =
      .ok (db.history repo previousTags last depth) := by
  have hselected := byNewest_selected hlast
  have hprevious : (byNewest (db.reports.filter fun r =>
      r.repo = repo ∧ tagColumn repo r ∈ previousTags)).drop
        (if latestTag ∈ previousTags then 1 else 0) =
      byNewest (db.others repo previousTags last) := by
    by_cases hmem : latestTag ∈ previousTags
    · rw [if_pos hmem, hself hmem]
      have hquery : (db.reports.filter fun r => r.repo = repo ∧ tagColumn repo r ∈ [latestTag]) =
          db.reports.filter (CostReport.Selected repo latestTag) := by
        refine List.filter_congr fun r _ => ?_
        simp [selected_iff]
      rw [hquery, hselected, List.drop_one, List.tail_cons]
    · have hnot : last ∉ db.reports.filter fun r =>
          r.repo = repo ∧ tagColumn repo r ∈ previousTags := by
        intro hin
        have htags : last.repo = repo ∧ tagColumn repo last ∈ previousTags :=
          of_decide_eq_true (List.mem_filter.mp hin).2
        rw [hlast.selected.2.symm] at hmem
        exact hmem htags.2
      rw [if_neg hmem, List.drop_zero, ← others_eq_erase, List.erase_of_not_mem hnot]
  unfold getHistoricalData
  simp only [hprevious, hselected]
  rw [if_neg (by omega)]
  rfl

theorem getHistoricalData_iff (hlast : IsNewest db repo latestTag last)
    (hself : latestTag ∈ previousTags → previousTags = [latestTag]) {table : List HistoryRow} :
    getHistoricalData db depth repo latestTag previousTags = .ok table ↔
      1 ≤ depth ∧ table = db.history repo previousTags last depth := by
  by_cases hdepth : 1 ≤ depth
  · rw [getHistoricalData_eq hlast hdepth hself, Except.ok.injEq]
    exact ⟨fun h => ⟨hdepth, h.symm⟩, fun h => h.2.symm⟩
  · unfold getHistoricalData
    rw [if_pos (by omega)]
    simp [hdepth]

/-- The last report shares all its rows with itself. -/
theorem sharedRows_self (db : Db) (last : CostReport) :
    db.sharedRows last last = db.rowsOf last := by
  refine List.filter_eq_self.mpr fun d hd => decide_eq_true ⟨?_, ?_⟩
  · exact List.mem_map_of_mem hd
  · exact List.mem_map_of_mem hd

/-- The query and the dictionary behind it, report by report. -/
theorem historyOf_perm {older : List CostReport}
    (hids : ((last :: older).map CostReport.id).Nodup) :
    (historyOf db repo last older).Perm ((db.rowsOf last).map (historyRow repo last) ++
      older.flatMap fun r => (db.sharedRows last r).map (historyRow repo r)) := by
  have hkeys : (((last :: older).map fun r => (r.id, r)).map Prod.fst).Nodup := by
    rwa [List.map_map]
  have hdict : ∀ id, (Dict.ofList ((last :: older).map fun r => (r.id, r))).get? id =
      Dict.lookup id ((last :: older).map fun r => (r.id, r)) := by
    intro id
    rw [Dict.ofList_of_nodup hkeys]
    rfl
  -- a row of another report is not in the dictionary either
  have hquery : historyOf db repo last older =
      (db.data.filter fun d => d.dappName ∈ db.dapps last ∧ d.action ∈ db.actions last).filterMap
        fun d => (Dict.lookup d.costReportId ((last :: older).map fun r => (r.id, r))).map
          fun r => historyRow repo r d := by
    unfold historyOf
    simp only [hdict]
    rw [List.filterMap_filter, List.filterMap_filter]
    refine List.filterMap_congr fun d _ => ?_
    by_cases hid : d.costReportId ∈ (last :: older).map CostReport.id
    · have hids : d.costReportId ∈ older.map CostReport.id ++ [last.id] := by
        simpa [or_comm] using hid
      refine if_congr (Iff.trans decide_eq_true_iff (Iff.trans ?_ decide_eq_true_iff.symm)) rfl rfl
      simp only [List.mem_dedup, hids, true_and, Db.dapps, Db.actions]
    · have hnone : Dict.lookup d.costReportId ((last :: older).map fun r => (r.id, r)) = none := by
        rw [Dict.lookup_eq_none, List.map_map]
        exact hid
      rw [hnone]
      simp only [Option.map_none, ite_self]
  have hshared : ∀ r, (db.data.filter fun d => d.dappName ∈ db.dapps last ∧
      d.action ∈ db.actions last).filter (fun d => d.costReportId = r.id) =
        db.sharedRows last r := by
    intro r
    rw [Db.sharedRows, Db.rowsOf, List.filter_filter, List.filter_filter]
    refine List.filter_congr fun d _ => ?_
    rw [Bool.and_comm]
  have hjoin := Join.join_perm DappData.costReportId (historyRow repo) hkeys
    (db.data.filter fun d => d.dappName ∈ db.dapps last ∧ d.action ∈ db.actions last)
  rw [List.flatMap_map] at hjoin
  simp only [hshared, List.flatMap_cons, sharedRows_self] at hjoin
  rw [hquery]
  exact hjoin

theorem pairwise_sortValues (rows : List HistoryRow) :
    (sortValues rows).Pairwise fun a b => a.sortKey ≤ b.sortKey := by
  have : Std.Total fun a b : HistoryRow => a.sortKey ≤ b.sortKey :=
    ⟨fun a b => le_total a.sortKey b.sortKey⟩
  have : IsTrans HistoryRow fun a b => a.sortKey ≤ b.sortKey := ⟨fun _ _ _ hab hbc => hab.trans hbc⟩
  exact List.pairwise_insertionSort _ rows

theorem sortValues_perm (rows : List HistoryRow) : (sortValues rows).Perm rows :=
  List.perm_insertionSort _ rows

/-- The reports of a history are different ones. -/
theorem nodup_history_ids (db : Db) (repo : RepoType) (previousTags : List String)
    (hmem : last ∈ db.reports) (depth : Nat) :
    ((last :: db.olderReports repo previousTags last depth).map CostReport.id).Nodup := by
  have hsub : ∀ r ∈ last :: db.olderReports repo previousTags last depth, r ∈ db.reports := by
    intro r hr
    rcases List.mem_cons.mp hr with rfl | hr
    · exact hmem
    · exact (mem_reports_of_older hr).1
  refine List.Nodup.map_on ?_ (List.nodup_cons.mpr ⟨?_, ?_⟩)
  · intro a ha b hb heq
    exact List.inj_on_of_nodup_map db.reports_nodup (hsub a ha) (hsub b hb) heq
  · intro hin
    have hcond := (List.mem_filter.mp (mem_olderReports hin)).2
    exact (of_decide_eq_true hcond).2 rfl
  · have hothers : (db.others repo previousTags last).Nodup := (reports_nodup db).filter _
    exact ((ranked_perm _).nodup_iff.mpr hothers).sublist (List.take_sublist _ _)

theorem mem_history (hmem : last ∈ db.reports) {row : HistoryRow} :
    row ∈ db.history repo previousTags last depth ↔
      ∃ r ∈ last :: db.olderReports repo previousTags last depth, ∃ d ∈ db.sharedRows last r,
        historyRow repo r d = row := by
  rw [Db.history, (sortValues_perm _).mem_iff,
    (historyOf_perm (nodup_history_ids db repo previousTags hmem depth)).mem_iff]
  simp only [List.mem_append, List.mem_map, List.mem_flatMap, List.mem_cons, exists_eq_or_imp,
    sharedRows_self]

/-- A report without data has no history at all. -/
theorem history_eq_nil (hmem : last ∈ db.reports) (hrows : db.rowsOf last = []) :
    db.history repo previousTags last depth = [] := by
  refine List.eq_nil_iff_forall_not_mem.mpr fun row hrow => ?_
  obtain ⟨r, -, d, hd, -⟩ := (mem_history hmem).mp hrow
  have hdapp := (of_decide_eq_true (List.mem_filter.mp hd).2).1
  rw [Db.dapps, hrows] at hdapp
  exact List.not_mem_nil hdapp

theorem olderReports_top (db : Db) (repo : RepoType) (previousTags : List String)
    (last : CostReport) (depth : Nat) :
    Top CostReport.timestamp (depth - 1) (db.others repo previousTags last)
      (db.olderReports repo previousTags last depth) :=
  top_take (ranked_perm _) (pairwise_ranked _) _

-- ---------------------------------------------------------------------------
-- get_historical_data
-- ---------------------------------------------------------------------------

theorem getHistoricalData_spec (db : Db) (hdistinct : DistinctTimestamps db) (repo : RepoType)
    (latestTag : String) (hstored : ∃ r ∈ db.reports, r.Selected repo latestTag)
    (previousTags : List String) (hcaller : CallerTags latestTag previousTags)
    (depth : Nat) (hdepth : 1 ≤ depth) :
    ∃ last older table, IsNewest db repo latestTag last ∧
      Top CostReport.timestamp (depth - 1) (db.others repo previousTags last) older ∧
      (last :: older).Nodup ∧
      getHistoricalData db depth repo latestTag previousTags = .ok table ∧
      table.Perm ((db.rowsOf last).map (historyRow repo last) ++
        older.flatMap fun r => (db.sharedRows last r).map (historyRow repo r)) ∧
      table.Pairwise fun a b => a.sortKey ≤ b.sortKey := by
  obtain ⟨last, hlast⟩ := exists_newest (hdistinct.under repo latestTag) hstored
  have hids := nodup_history_ids db repo previousTags hlast.mem depth
  refine ⟨last, db.olderReports repo previousTags last depth,
    db.history repo previousTags last depth, hlast, ?_, ?_, ?_, ?_, ?_⟩
  · exact olderReports_top db repo previousTags last depth
  · exact List.Nodup.of_map _ hids
  · exact getHistoricalData_eq hlast hdepth hcaller.eq_singleton
  · exact (sortValues_perm _).trans (historyOf_perm hids)
  · exact pairwise_sortValues _

def developReport (id : Nat) (evmCommitSha : String) : CostReport where
  id := id
  timestamp := id
  repo := .evm
  neonEvmTag := "latest"
  proxyTag := "latest"
  evmCommitSha := some evmCommitSha
  proxyCommitSha := "88e0"

def dappRow (costReportId : Nat) (dappName action : String) : DappData where
  dappName := dappName
  action := action
  accCount := 2
  trxCount := 12
  gasEstimated := some 122879
  gasUsed := 21000
  computeUnits := 8946
  costReportId := costReportId

/-- An action of one dApp moves to the other. -/
def movedActionDb : Db where
  reports := [developReport 1 "9a40", developReport 2 "b7d1"]
  data := [dappRow 1 "uniswap" "swap", dappRow 2 "uniswap" "mint", dappRow 2 "curve" "swap"]
  nextReportId := 3
  reports_nodup := by decide
  reports_lt := by decide
  data_refers := by decide

theorem movedActionDb_newest : IsNewest movedActionDb .evm "latest" (developReport 2 "b7d1") where
  mem := by decide
  selected := by decide
  newest := by decide

/-- The old row comes along, its dApp and its action being those of two new rows. -/
theorem getHistoricalData_movedAction :
    DistinctTimestamps movedActionDb ∧
      IsNewest movedActionDb .evm "latest" (developReport 2 "b7d1") ∧
      ∃ table, getHistoricalData movedActionDb 2 .evm "latest" ["latest"] = .ok table ∧
        ∃ row ∈ table, row = historyRow .evm (developReport 1 "9a40") (dappRow 1 "uniswap" "swap") ∧
          (row.dappName, row.action) ∉
            (movedActionDb.rowsOf (developReport 2 "b7d1")).map fun d => (d.dappName, d.action) :=
  ⟨by decide, movedActionDb_newest, _, rfl, by decide⟩

theorem getHistoricalData_spec_movedAction :
    ∃ last older table, IsNewest movedActionDb .evm "latest" last ∧
      Top CostReport.timestamp (2 - 1) (movedActionDb.others .evm ["latest"] last) older ∧
      (last :: older).Nodup ∧
      getHistoricalData movedActionDb 2 .evm "latest" ["latest"] = .ok table ∧
      table.Perm ((movedActionDb.rowsOf last).map (historyRow .evm last) ++
        older.flatMap fun r => (movedActionDb.sharedRows last r).map (historyRow .evm r)) ∧
      table.Pairwise fun a b => a.sortKey ≤ b.sortKey :=
  getHistoricalData_spec movedActionDb (by decide) .evm "latest" (by decide) ["latest"]
    (.single "latest") 2 (by decide)

end NeonTests.ResultsDb
