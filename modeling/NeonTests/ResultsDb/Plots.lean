import NeonTests.ResultsDb.Historical

/-!
# Test results database — the dApps that are plotted

`get_historical_data` takes the newest report of the compared tag for the current one, and
`generate_and_save_plots_pdf` the one with the greatest timestamp of the table.

* `exists_plotted` — the report the plots take for the current one;
* `generateAndSavePlotsPdf_dapps_iff` — its dApps are those of the compared report, except
  where a report of a previous tag was stored later and lacks one of them.
-/

namespace NeonTests.ResultsDb

open Fallible Python Ranking

-- ---------------------------------------------------------------------------
-- The pages of a table
-- ---------------------------------------------------------------------------

section

variable {table : List HistoryRow} {row : HistoryRow} {title : String} {pages : List Page}
  {latestTimestamp : Nat}

@[simp] theorem mem_unique {x : String} {xs : List String} : x ∈ unique xs ↔ x ∈ xs := by
  simp [unique]

theorem nodup_unique (xs : List String) : (unique xs).Nodup :=
  List.nodup_reverse.mpr (List.nodup_dedup _)

theorem gasUsedPercent_returns_iff :
    (∃ percent, gasUsedPercent row = .ok percent) ↔ ∃ n, row.gasEstimated = some (n + 1) := by
  unfold gasUsedPercent
  cases row.gasEstimated with
  | none => simp
  | some gas =>
    cases gas with
    | zero => simp
    | succ n => simp

theorem generateAndSavePlotsPdf_nil : generateAndSavePlotsPdf [] title ≠ .ok pages := by
  simp [generateAndSavePlotsPdf]

/-- Once the columns are computed, the pages are the dApps of the latest rows. -/
theorem generateAndSavePlotsPdf_iff
    (hlatest : (table.map fun row => row.timestamp).max? = some latestTimestamp)
    {P : List String → Prop} :
    (∃ pages, generateAndSavePlotsPdf table title = .ok pages ∧ P (pages.map Page.dappName)) ↔
      (∀ row ∈ table, ∃ n, row.gasEstimated = some (n + 1)) ∧
        P (unique ((table.filter fun row => row.timestamp = latestTimestamp).map
          fun row => row.dappName)) := by
  have hreturns : (∃ percents, table.mapM gasUsedPercent = .ok percents) ↔
      ∀ row ∈ table, ∃ n, row.gasEstimated = some (n + 1) := by
    simp only [mapM_returns_iff, gasUsedPercent_returns_iff]
  rw [← hreturns]
  unfold generateAndSavePlotsPdf
  simp only [hlatest]
  constructor
  · rintro ⟨pages, h, hpages⟩
    obtain ⟨percents, hpercents, h⟩ := bind_eq_ok.mp h
    cases pure_eq_ok.mp h
    refine ⟨⟨percents, hpercents⟩, ?_⟩
    simpa [Function.comp_def] using hpages
  · rintro ⟨⟨percents, hpercents⟩, hnames⟩
    rw [hpercents]
    refine ⟨_, rfl, ?_⟩
    simpa [Function.comp_def] using hnames

end

-- ---------------------------------------------------------------------------
-- The report the plots take for the current one
-- ---------------------------------------------------------------------------

/-- One page for every dApp of the report, and no other. -/
def DrawsDapps (db : Db) (last : CostReport) (dappNames : List String) : Prop :=
  dappNames.Nodup ∧ ∀ name, name ∈ dappNames ↔ name ∈ db.dapps last

/-- The newest of the older reports that have a row in the history. -/
structure IsNewestContributor (db : Db) (repo : RepoType) (previousTags : List String)
    (last : CostReport) (depth : Nat) (r : CostReport) : Prop where
  mem : r ∈ db.olderReports repo previousTags last depth
  shares : db.sharedRows last r ≠ []
  newest : ∀ r' ∈ db.olderReports repo previousTags last depth, db.sharedRows last r' ≠ [] →
    r'.timestamp ≤ r.timestamp

variable {db : Db} {repo : RepoType} {latestTag : String} {previousTags : List String}
  {last : CostReport} {depth : Nat}

/-- Its rows are among those with the greatest timestamp. -/
theorem exists_plotted (repo : RepoType) (previousTags : List String) (depth : Nat)
    (hmem : last ∈ db.reports) (hrows : db.rowsOf last ≠ []) :
    ∃ r ∈ last :: db.olderReports repo previousTags last depth,
      ((db.history repo previousTags last depth).map fun row => row.timestamp).max? =
        some r.timestamp ∧
      db.sharedRows last r ≠ [] ∧
      ∀ r' ∈ last :: db.olderReports repo previousTags last depth,
        db.sharedRows last r' ≠ [] → r'.timestamp ≤ r.timestamp := by
  obtain ⟨d, hd⟩ := List.exists_mem_of_ne_nil _ hrows
  have hrow : historyRow repo last d ∈ db.history repo previousTags last depth := by
    refine (mem_history hmem).mpr ⟨last, List.mem_cons_self, d, ?_, rfl⟩
    rwa [sharedRows_self]
  cases hmax : ((db.history repo previousTags last depth).map fun row => row.timestamp).max? with
  | none =>
    rw [List.max?_eq_none_iff, List.map_eq_nil_iff] at hmax
    rw [hmax] at hrow
    exact absurd hrow List.not_mem_nil
  | some latestTimestamp =>
    obtain ⟨hlatest, hgreatest⟩ := List.max?_eq_some_iff.mp hmax
    obtain ⟨row, hrow, rfl⟩ := List.mem_map.mp hlatest
    obtain ⟨r, hr, d, hd, rfl⟩ := (mem_history hmem).mp hrow
    refine ⟨r, hr, rfl, List.ne_nil_of_mem hd, ?_⟩
    intro r' hr' hshares
    obtain ⟨d', hd'⟩ := List.exists_mem_of_ne_nil _ hshares
    have hrow' : historyRow repo r' d' ∈ db.history repo previousTags last depth :=
      (mem_history hmem).mpr ⟨r', hr', d', hd', rfl⟩
    exact hgreatest _ (List.mem_map_of_mem hrow')

/-- The dApps with a row at a time. -/
theorem mem_dapps_at (hmem : last ∈ db.reports) (latestTimestamp : Nat) (name : String) :
    name ∈ ((db.history repo previousTags last depth).filter
        fun row => row.timestamp = latestTimestamp).map (fun row => row.dappName) ↔
      ∃ r ∈ last :: db.olderReports repo previousTags last depth,
        r.timestamp = latestTimestamp ∧ ∃ d ∈ db.sharedRows last r, d.dappName = name := by
  simp only [List.mem_map, List.mem_filter, mem_history hmem, decide_eq_true_eq]
  constructor
  · rintro ⟨_, ⟨⟨r, hr, d, hd, rfl⟩, htimestamp⟩, rfl⟩
    exact ⟨r, hr, htimestamp, d, hd, rfl⟩
  · rintro ⟨r, hr, htimestamp, d, hd, rfl⟩
    exact ⟨historyRow repo r d, ⟨⟨r, hr, d, hd, rfl⟩, htimestamp⟩, rfl⟩

theorem dapps_of_sharedRows {r : CostReport} {d : DappData} (hd : d ∈ db.sharedRows last r) :
    d.dappName ∈ db.dapps last :=
  (of_decide_eq_true (List.mem_filter.mp hd).2).1

theorem gasEstimated_iff (hmem : last ∈ db.reports) :
    (∀ row ∈ db.history repo previousTags last depth, ∃ n, row.gasEstimated = some (n + 1)) ↔
      ∀ r ∈ last :: db.olderReports repo previousTags last depth,
        ∀ d ∈ db.sharedRows last r, ∃ n, d.gasEstimated = some (n + 1) := by
  simp only [mem_history hmem]
  constructor
  · intro h r hr d hd
    exact h (historyRow repo r d) ⟨r, hr, d, hd, rfl⟩
  · rintro h _ ⟨r, hr, d, hd, rfl⟩
    exact h r hr d hd

/-- The dApps drawn are dApps of the compared report; the question is whether all are. -/
theorem drawsDapps_iff (hmem : last ∈ db.reports) (latestTimestamp : Nat) :
    DrawsDapps db last (unique (((db.history repo previousTags last depth).filter
        fun row => row.timestamp = latestTimestamp).map fun row => row.dappName)) ↔
      ∀ name ∈ db.dapps last, ∃ r ∈ last :: db.olderReports repo previousTags last depth,
        r.timestamp = latestTimestamp ∧ ∃ d ∈ db.sharedRows last r, d.dappName = name := by
  unfold DrawsDapps
  simp only [nodup_unique, mem_unique, mem_dapps_at hmem, true_and]
  constructor
  · intro h name hname
    exact (h name).mpr hname
  · intro h name
    refine ⟨?_, h name⟩
    rintro ⟨r, -, -, d, hd, rfl⟩
    exact dapps_of_sharedRows hd

/-- It is asked only where one of the older reports is later. -/
theorem plotted_covers_iff (hrows : db.rowsOf last ≠ []) {r : CostReport}
    (hr : r ∈ last :: db.olderReports repo previousTags last depth)
    (hshares : db.sharedRows last r ≠ [])
    (hgreatest : ∀ r' ∈ last :: db.olderReports repo previousTags last depth,
      db.sharedRows last r' ≠ [] → r'.timestamp ≤ r.timestamp) :
    (∀ name ∈ db.dapps last, ∃ r' ∈ last :: db.olderReports repo previousTags last depth,
        r'.timestamp = r.timestamp ∧ ∃ d ∈ db.sharedRows last r', d.dappName = name) ↔
      ∀ r', IsNewestContributor db repo previousTags last depth r' →
        last.timestamp < r'.timestamp → ∀ name ∈ db.dapps last,
          ∃ r'' ∈ db.olderReports repo previousTags last depth,
            r''.timestamp = r'.timestamp ∧ ∃ d ∈ db.sharedRows last r'', d.dappName = name := by
  have hle := hgreatest last List.mem_cons_self (by rwa [sharedRows_self])
  rcases Nat.eq_or_lt_of_le hle with heq | hlt
  · -- the compared report is among the latest: it has all its dApps itself
    constructor
    · intro _ r' hr' hlater
      have := hgreatest r' (List.mem_cons_of_mem last hr'.mem) hr'.shares
      omega
    · rintro - name hname
      obtain ⟨d, hd, rfl⟩ := List.mem_map.mp hname
      exact ⟨last, List.mem_cons_self, heq, d, by rwa [sharedRows_self], rfl⟩
  · have holder : ∀ r' ∈ last :: db.olderReports repo previousTags last depth,
        r'.timestamp = r.timestamp → r' ∈ db.olderReports repo previousTags last depth := by
      intro r' hr' htimestamp
      refine (List.mem_cons.mp hr').resolve_left ?_
      rintro rfl
      omega
    have hcontributor : IsNewestContributor db repo previousTags last depth r :=
      ⟨holder r hr rfl, hshares, fun r' hr' => hgreatest r' (List.mem_cons_of_mem last hr')⟩
    constructor
    · intro h r' hr' _ name hname
      have hle' := hgreatest r' (List.mem_cons_of_mem last hr'.mem) hr'.shares
      have hge' := hr'.newest r (holder r hr rfl) hshares
      obtain ⟨r'', hr'', htimestamp, hd⟩ := h name hname
      exact ⟨r'', holder r'' hr'' htimestamp, htimestamp.trans (le_antisymm hge' hle'), hd⟩
    · intro h name hname
      obtain ⟨r', hr', hrow⟩ := h r hcontributor hlt name hname
      exact ⟨r', List.mem_cons_of_mem last hr', hrow⟩

theorem generateAndSavePlotsPdf_dapps_iff (db : Db) (repo : RepoType) (latestTag : String)
    (last : CostReport) (hlast : IsNewest db repo latestTag last) (previousTags : List String)
    (hcaller : CallerTags latestTag previousTags) (depth : Nat) (table : List HistoryRow)
    (htable : getHistoricalData db depth repo latestTag previousTags = .ok table)
    (title : String) :
    (∃ pages, generateAndSavePlotsPdf table title = .ok pages ∧
        DrawsDapps db last (pages.map Page.dappName)) ↔
      db.rowsOf last ≠ [] ∧
      (∀ r ∈ last :: db.olderReports repo previousTags last depth,
        ∀ d ∈ db.sharedRows last r, ∃ n, d.gasEstimated = some (n + 1)) ∧
      ∀ r, IsNewestContributor db repo previousTags last depth r →
        last.timestamp < r.timestamp → ∀ name ∈ db.dapps last,
          ∃ r' ∈ db.olderReports repo previousTags last depth,
            r'.timestamp = r.timestamp ∧ ∃ d ∈ db.sharedRows last r', d.dappName = name := by
  obtain ⟨-, rfl⟩ := (getHistoricalData_iff hlast hcaller.eq_singleton).mp htable
  by_cases hrows : db.rowsOf last = []
  · rw [history_eq_nil hlast.mem hrows]
    constructor
    · rintro ⟨pages, hpages, -⟩
      exact absurd hpages generateAndSavePlotsPdf_nil
    · rintro ⟨hnonempty, -⟩
      exact absurd hrows hnonempty
  · obtain ⟨r, hr, hmax, hshares, hgreatest⟩ :=
      exists_plotted repo previousTags depth hlast.mem hrows
    rw [generateAndSavePlotsPdf_iff hmax, gasEstimated_iff hlast.mem,
      drawsDapps_iff hlast.mem, plotted_covers_iff hrows hr hshares hgreatest]
    exact (and_iff_right hrows).symm

def branchReport : CostReport where
  id := 1
  timestamp := 1
  repo := .evm
  neonEvmTag := "NDEV-1"
  proxyTag := "latest"
  evmCommitSha := some "c0de"
  proxyCommitSha := "88e0"

/-- A merge to the development branch is reported between the two steps of another branch. -/
def mergedMeanwhileDb : Db where
  reports := [branchReport, developReport 2 "b7d1"]
  data := [dappRow 1 "uniswap" "swap", dappRow 1 "curve" "swap", dappRow 2 "uniswap" "swap"]
  nextReportId := 3
  reports_nodup := by decide
  reports_lt := by decide
  data_refers := by decide

theorem mergedMeanwhileDb_newest : IsNewest mergedMeanwhileDb .evm "NDEV-1" branchReport where
  mem := by decide
  selected := by decide
  newest := by decide

/-- The dApp that only the compared report has is not drawn. -/
theorem generateAndSavePlotsPdf_mergedMeanwhile :
    IsNewest mergedMeanwhileDb .evm "NDEV-1" branchReport ∧
      ∃ table pages, getHistoricalData mergedMeanwhileDb 10 .evm "NDEV-1" ["latest"] = .ok table ∧
        generateAndSavePlotsPdf table "" = .ok pages ∧
        pages.map Page.dappName = ["uniswap"] ∧
        "curve" ∈ mergedMeanwhileDb.dapps branchReport ∧
        ¬ DrawsDapps mergedMeanwhileDb branchReport (pages.map Page.dappName) := by
  refine ⟨mergedMeanwhileDb_newest, _, _, rfl, rfl, rfl, by decide, ?_⟩
  intro h
  exact absurd ((h.2 "curve").mpr (by decide)) (by decide)

theorem generateAndSavePlotsPdf_dapps_iff_mergedMeanwhile :
    (∃ pages, generateAndSavePlotsPdf
          (mergedMeanwhileDb.history .evm ["latest"] branchReport 10) "" = .ok pages ∧
        DrawsDapps mergedMeanwhileDb branchReport (pages.map Page.dappName)) ↔
      mergedMeanwhileDb.rowsOf branchReport ≠ [] ∧
      (∀ r ∈ branchReport :: mergedMeanwhileDb.olderReports .evm ["latest"] branchReport 10,
        ∀ d ∈ mergedMeanwhileDb.sharedRows branchReport r, ∃ n, d.gasEstimated = some (n + 1)) ∧
      ∀ r, IsNewestContributor mergedMeanwhileDb .evm ["latest"] branchReport 10 r →
        branchReport.timestamp < r.timestamp → ∀ name ∈ mergedMeanwhileDb.dapps branchReport,
          ∃ r' ∈ mergedMeanwhileDb.olderReports .evm ["latest"] branchReport 10,
            r'.timestamp = r.timestamp ∧
              ∃ d ∈ mergedMeanwhileDb.sharedRows branchReport r', d.dappName = name :=
  generateAndSavePlotsPdf_dapps_iff mergedMeanwhileDb .evm "NDEV-1" branchReport
    mergedMeanwhileDb_newest ["latest"] (.single "latest") 10 _ rfl ""

end NeonTests.ResultsDb
