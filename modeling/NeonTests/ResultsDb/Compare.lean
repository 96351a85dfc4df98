import NeonTests.ResultsDb.Historical

/-!
# Test results database — the commits in the title

Which report `compare_dapp_results` takes the two SHAs from.

* `not_mem_getPreviousTags` — a release is never among the releases before it;
* `dataSampleRow_eq_ok` — the row taken is the oldest of those with both tags;
* `compareDappResults_shas_iff` — the SHAs are the compared report's, except where a branch
  is compared with itself and an older report of it has both tags and other commits.
-/

namespace NeonTests.ResultsDb

open Fallible Python Ranking

-- ---------------------------------------------------------------------------
-- A release is not compared with itself
-- ---------------------------------------------------------------------------

section

variable {p : Packages} {db : Db} {repo : RepoType} {tag : String} {tags : List String}

/-- Behind the first lower tag of a sorted list there are only lower ones. -/
theorem fromFirstLower_lower {v : p.Version} {found : List (p.Version × String)}
    (hversions : ∀ q ∈ found, p.tagVersion q.2 = .ok q.1)
    (hsorted : found.Pairwise fun a b => b.1 ≤ a.1)
    (h : p.fromFirstLower v (found.map Prod.snd) = .ok tags) :
    ∀ t ∈ tags, ∃ k, p.tagVersion t = .ok k ∧ k < v := by
  induction found with
  | nil =>
    cases h
    simp
  | cons q found ih =>
    obtain ⟨hq, hsorted⟩ := List.pairwise_cons.mp hsorted
    rw [List.map_cons, Packages.fromFirstLower, hversions q List.mem_cons_self, ok_bind] at h
    split at h
    · rename_i hlower
      cases h
      intro t ht
      obtain ⟨q', hq', rfl⟩ := List.mem_map.mp (show t ∈ (q :: found).map Prod.snd from ht)
      refine ⟨q'.1, hversions q' hq', ?_⟩
      rcases List.mem_cons.mp hq' with rfl | hq'
      · exact hlower
      · exact lt_of_le_of_lt (hq q' hq') hlower
    · exact ih (fun q' hq' => hversions q' (List.mem_cons_of_mem q hq')) hsorted h

theorem not_mem_getPreviousTags {limit : Nat} (h : getPreviousTags p db repo tag limit = .ok tags) :
    tag ∉ tags := by
  unfold getPreviousTags at h
  split at h
  · obtain ⟨sortedTags, hsort, h⟩ := bind_eq_ok.mp h
    obtain ⟨latestTag, hlatest, h⟩ := bind_eq_ok.mp h
    obtain ⟨previousTags, hprevious, h⟩ := bind_eq_ok.mp h
    obtain ⟨keys, hkeys, hsort⟩ := bind_eq_ok.mp hsort
    rw [pure_eq_ok] at h hsort
    subst h hsort
    have hversions : ∀ q ∈ keys.zip _, p.tagVersion q.2 = .ok q.1 :=
      fun q hq => List.forall₂_zip (forall₂_of_mapM hkeys).flip hq
    have hlower := fromFirstLower_lower (fun q hq => hversions q (mem_ranked.mp hq))
      (pairwise_ranked _) hprevious
    intro hmem
    obtain ⟨k, hk, hlt⟩ := hlower tag (List.mem_of_mem_take hmem)
    rw [hlatest, Except.ok.injEq] at hk
    exact absurd hlt (by rw [hk]; exact lt_irrefl k)
  · cases h

end

/-- The compared tag is the one branch it is compared with. -/
def CompareCommand.ComparesWithItself (p : Packages) (cmd : CompareCommand) : Prop :=
  fullmatchesTag p.isDecimal cmd.comparedServiceTag = false ∧
    cmd.comparedServiceTag = if cmd.versionBranch = "" then "latest" else cmd.versionBranch

variable {p : Packages} {db : Db} {cmd : CompareCommand} {last r : CostReport}
  {previousTags : List String} {table : List HistoryRow} {row : HistoryRow} {c : Comparison}

theorem comparesWithItself_of_mem (h : cmd.previousTags p db = .ok previousTags)
    (hmem : cmd.comparedServiceTag ∈ previousTags) :
    cmd.ComparesWithItself p ∧ previousTags = [cmd.comparedServiceTag] := by
  unfold CompareCommand.previousTags at h
  split at h
  · exact absurd hmem (not_mem_getPreviousTags h)
  · rename_i hrelease
    cases h
    rw [← List.mem_singleton.mp hmem]
    exact ⟨⟨by simpa using hrelease, List.mem_singleton.mp hmem⟩, rfl⟩

theorem previousTags_of_itself (hitself : cmd.ComparesWithItself p)
    (h : cmd.previousTags p db = .ok previousTags) : previousTags = [cmd.comparedServiceTag] := by
  unfold CompareCommand.previousTags at h
  rw [if_neg (by simp [hitself.1]), Except.ok.injEq, ← hitself.2] at h
  exact h.symm

-- ---------------------------------------------------------------------------
-- data_sample_row
-- ---------------------------------------------------------------------------

/-- A report with both tags of the command. -/
def CompareCommand.HasTags (cmd : CompareCommand) (r : CostReport) : Prop :=
  r.neonEvmTag = cmd.evmTag ∧ r.proxyTag = cmd.proxyTag

/-- Of the reports the branch is compared with, the oldest one that has both tags and shares a
row with the compared report. -/
structure IsOldestNamesake (db : Db) (cmd : CompareCommand) (last r : CostReport) : Prop where
  mem : r ∈ db.olderReports cmd.repo [cmd.comparedServiceTag] last cmd.historyDepthLimit
  tags : cmd.HasTags r
  shares : db.sharedRows last r ≠ []
  oldest : ∀ r' ∈ db.olderReports cmd.repo [cmd.comparedServiceTag] last cmd.historyDepthLimit,
    cmd.HasTags r' → db.sharedRows last r' ≠ [] → r.timestamp ≤ r'.timestamp

theorem tagColumn_of_hasTags (h : cmd.HasTags r) :
    tagColumn cmd.repo r = cmd.comparedServiceTag := by
  unfold tagColumn CompareCommand.comparedServiceTag
  rw [h.1, h.2]

/-- The first sample of a sorted table is the oldest. -/
theorem dataSampleRow_eq_ok (hsorted : table.Pairwise fun a b => a.sortKey ≤ b.sortKey)
    (h : cmd.dataSampleRow table = .ok row) :
    row ∈ table ∧ cmd.Samples row ∧ ∀ row' ∈ table, cmd.Samples row' →
      row.timestamp ≤ row'.timestamp := by
  unfold CompareCommand.dataSampleRow at h
  split at h
  · cases h
  · split at h
    · cases h
    · rename_i first rest hfilter
      cases h
      have hmem : row ∈ table.filter cmd.Samples := hfilter ▸ List.mem_cons_self
      refine ⟨List.mem_of_mem_filter hmem, of_decide_eq_true (List.mem_filter.mp hmem).2, ?_⟩
      intro row' hrow' hsample
      have hmem' : row' ∈ table.filter cmd.Samples :=
        List.mem_filter.mpr ⟨hrow', decide_eq_true hsample⟩
      have hfiltered := hsorted.filter (fun row => decide (cmd.Samples row))
      rw [hfilter] at hmem' hfiltered
      rcases List.mem_cons.mp hmem' with rfl | hmem'
      · exact le_rfl
      · have hkey := (List.pairwise_cons.mp hfiltered).1 row' hmem'
        exact Prod.Lex.monotone_fst _ _ hkey

theorem exists_dataSampleRow (hrow : row ∈ table) (hsample : cmd.Samples row) :
    ∃ row', cmd.dataSampleRow table = .ok row' := by
  unfold CompareCommand.dataSampleRow
  rw [if_neg (List.ne_nil_of_mem hrow)]
  split
  · rename_i hnone
    exact absurd (List.mem_filter.mpr ⟨hrow, decide_eq_true hsample⟩)
      (hnone ▸ List.not_mem_nil)
  · exact ⟨_, rfl⟩

theorem samples_historyRow {d : DappData} (hrepo : r.repo = cmd.repo) :
    cmd.Samples (historyRow cmd.repo r d) ↔ cmd.HasTags r :=
  and_iff_right hrepo

-- ---------------------------------------------------------------------------
-- compare_dapp_results
-- ---------------------------------------------------------------------------

theorem getHistoricalData_compared (hlast : IsNewest db cmd.repo cmd.comparedServiceTag last)
    (hprevious : cmd.previousTags p db = .ok previousTags) :
    getHistoricalData db cmd.historyDepthLimit cmd.repo cmd.comparedServiceTag previousTags =
        .ok table ↔
      1 ≤ cmd.historyDepthLimit ∧
        table = db.history cmd.repo previousTags last cmd.historyDepthLimit :=
  getHistoricalData_iff hlast fun hmem => (comparesWithItself_of_mem hprevious hmem).2

theorem compareDappResults_ok (hlast : IsNewest db cmd.repo cmd.comparedServiceTag last)
    (h : compareDappResults p db cmd = .ok c) :
    ∃ previousTags row, cmd.previousTags p db = .ok previousTags ∧ 1 ≤ cmd.historyDepthLimit ∧
      cmd.dataSampleRow (db.history cmd.repo previousTags last cmd.historyDepthLimit) = .ok row ∧
      cmd.commitShas row.evmCommitSha row.proxyCommitSha =
        .ok (c.comparedServiceCommitSha, c.otherServiceCommitSha) ∧
      c.titleEnd = titleEnd cmd.repo cmd.comparedServiceTag cmd.otherServiceTag
        c.comparedServiceCommitSha c.otherServiceCommitSha := by
  unfold compareDappResults at h
  obtain ⟨previousTags, hprevious, h⟩ := bind_eq_ok.mp h
  obtain ⟨table, htable, h⟩ := bind_eq_ok.mp h
  obtain ⟨row, hrow, h⟩ := bind_eq_ok.mp h
  obtain ⟨shas, hshas, h⟩ := bind_eq_ok.mp h
  cases pure_eq_ok.mp h
  obtain ⟨hdepth, rfl⟩ := (getHistoricalData_compared hlast hprevious).mp htable
  exact ⟨previousTags, row, hprevious, hdepth, hrow, hshas, rfl⟩

theorem repo_of_compared (hlast : IsNewest db cmd.repo cmd.comparedServiceTag last)
    (hr : r ∈ last :: db.olderReports cmd.repo previousTags last cmd.historyDepthLimit) :
    r.repo = cmd.repo := by
  rcases List.mem_cons.mp hr with rfl | hr
  · exact hlast.selected.1
  · exact (mem_reports_of_older hr).2.1

/-- The row the SHAs are read from, seen as the report it comes from. -/
theorem exists_report_of_row (hlast : IsNewest db cmd.repo cmd.comparedServiceTag last)
    (h : cmd.dataSampleRow (db.history cmd.repo previousTags last cmd.historyDepthLimit) =
      .ok row) :
    ∃ r ∈ last :: db.olderReports cmd.repo previousTags last cmd.historyDepthLimit,
      row.evmCommitSha = r.evmCommitSha ∧ row.proxyCommitSha = r.proxyCommitSha ∧
      cmd.HasTags r ∧ db.sharedRows last r ≠ [] ∧
      ∀ r' ∈ last :: db.olderReports cmd.repo previousTags last cmd.historyDepthLimit,
        cmd.HasTags r' → db.sharedRows last r' ≠ [] → r.timestamp ≤ r'.timestamp := by
  obtain ⟨hmem, hsample, holdest⟩ := dataSampleRow_eq_ok (pairwise_sortValues _) h
  obtain ⟨r, hr, d, hd, rfl⟩ := (mem_history hlast.mem).mp hmem
  have htags : cmd.HasTags r := (samples_historyRow (repo_of_compared hlast hr)).mp hsample
  refine ⟨r, hr, rfl, rfl, htags, List.ne_nil_of_mem hd, ?_⟩
  intro r' hr' htags' hshares
  obtain ⟨d', hd'⟩ := List.exists_mem_of_ne_nil _ hshares
  refine holdest (historyRow cmd.repo r' d') ?_ ?_
  · exact (mem_history hlast.mem).mpr ⟨r', hr', d', hd', rfl⟩
  · exact (samples_historyRow (repo_of_compared hlast hr')).mpr htags'

theorem compareDappResults_returns_iff
    (hlast : IsNewest db cmd.repo cmd.comparedServiceTag last) (htags : cmd.HasTags last) :
    (∃ c, compareDappResults p db cmd = .ok c) ↔
      (∃ previousTags, cmd.previousTags p db = .ok previousTags) ∧ cmd.repo ≠ .tests ∧
        1 ≤ cmd.historyDepthLimit ∧ db.rowsOf last ≠ [] := by
  constructor
  · rintro ⟨c, h⟩
    obtain ⟨previousTags, row, hprevious, hdepth, hrow, hshas, -⟩ :=
      compareDappResults_ok hlast h
    refine ⟨⟨previousTags, hprevious⟩, ?_, hdepth, ?_⟩
    · intro hrepo
      rw [CompareCommand.commitShas, hrepo] at hshas
      cases hshas
    · intro hrows
      rw [history_eq_nil hlast.mem hrows] at hrow
      cases hrow
  · rintro ⟨⟨previousTags, hprevious⟩, hrepo, hdepth, hrows⟩
    obtain ⟨d, hd⟩ := List.exists_mem_of_ne_nil _ hrows
    have hmem : historyRow cmd.repo last d ∈
        db.history cmd.repo previousTags last cmd.historyDepthLimit := by
      refine (mem_history hlast.mem).mpr ⟨last, List.mem_cons_self, d, ?_, rfl⟩
      rwa [sharedRows_self]
    obtain ⟨row, hrow⟩ := exists_dataSampleRow hmem
      ((samples_historyRow hlast.selected.1).mpr htags)
    obtain ⟨shas, hshas⟩ :
        ∃ shas, cmd.commitShas row.evmCommitSha row.proxyCommitSha = .ok shas := by
      unfold CompareCommand.commitShas
      cases hcase : cmd.repo with
      | evm => exact ⟨_, rfl⟩
      | proxy => exact ⟨_, rfl⟩
      | tests => exact absurd hcase hrepo
    have htable := (getHistoricalData_compared hlast hprevious).mpr ⟨hdepth, rfl⟩
    unfold compareDappResults
    rw [hprevious, ok_bind, htable, ok_bind, hrow, ok_bind, hshas, ok_bind]
    exact ⟨_, rfl⟩

theorem commitShas_inj {evmSha evmSha' : Option String} {proxySha proxySha' : String}
    {shas : Option String × Option String} (h : cmd.commitShas evmSha proxySha = .ok shas) :
    cmd.commitShas evmSha' proxySha' = .ok shas ↔ evmSha = evmSha' ∧ proxySha = proxySha' := by
  unfold CompareCommand.commitShas at h ⊢
  cases hrepo : cmd.repo <;> rw [hrepo] at h <;> cases h <;> simp [eq_comm, and_comm]

theorem compareDappResults_shas_iff (p : Packages) (db : Db) (cmd : CompareCommand)
    (hdistinct : DistinctUnder db cmd.repo cmd.comparedServiceTag) (last : CostReport)
    (hlast : IsNewest db cmd.repo cmd.comparedServiceTag last)
    (htags : cmd.HasTags last) :
    ((∃ c, compareDappResults p db cmd = .ok c) ↔
      (∃ previousTags, cmd.previousTags p db = .ok previousTags) ∧ cmd.repo ≠ .tests ∧
        1 ≤ cmd.historyDepthLimit ∧ db.rowsOf last ≠ []) ∧
    ∀ c, compareDappResults p db cmd = .ok c →
      c.titleEnd = titleEnd cmd.repo cmd.comparedServiceTag cmd.otherServiceTag
        c.comparedServiceCommitSha c.otherServiceCommitSha ∧
      (cmd.commitShas last.evmCommitSha last.proxyCommitSha =
          .ok (c.comparedServiceCommitSha, c.otherServiceCommitSha) ↔
        (cmd.ComparesWithItself p → ∀ r, IsOldestNamesake db cmd last r →
          r.evmCommitSha = last.evmCommitSha ∧ r.proxyCommitSha = last.proxyCommitSha)) := by
  refine ⟨compareDappResults_returns_iff hlast htags, ?_⟩
  intro c h
  obtain ⟨previousTags, row, hprevious, -, hrow, hshas, htitle⟩ := compareDappResults_ok hlast h
  refine ⟨htitle, ?_⟩
  obtain ⟨r, hr, hevm, hproxy, htagsr, hshares, holdest⟩ := exists_report_of_row hlast hrow
  rw [hevm, hproxy] at hshas
  rw [commitShas_inj hshas]
  rcases List.mem_cons.mp hr with rfl | hr
  · -- nothing older has both tags
    refine ⟨?_, fun _ => ⟨rfl, rfl⟩⟩
    intro _ hitself r' hr'
    cases previousTags_of_itself hitself hprevious
    obtain ⟨hmem, hselected, hne⟩ := selected_of_older hr'.mem
    have hlt := hlast.newest r' hmem hselected hne
    have hge := holdest r' (List.mem_cons_of_mem r hr'.mem) hr'.tags hr'.shares
    omega
  · obtain ⟨-, -, htag⟩ := mem_reports_of_older hr
    rw [tagColumn_of_hasTags htagsr] at htag
    obtain ⟨hitself, rfl⟩ := comparesWithItself_of_mem hprevious htag
    have hnamesake : IsOldestNamesake db cmd last r :=
      ⟨hr, htagsr, hshares, fun r' hr' => holdest r' (List.mem_cons_of_mem last hr')⟩
    refine ⟨?_, fun hcond => hcond hitself r hnamesake⟩
    intro heq _ r' hr'
    obtain ⟨hmem, hselected, -⟩ := selected_of_older hr
    obtain ⟨hmem', hselected', -⟩ := selected_of_older hr'.mem
    have hle := hr'.oldest r hr htagsr hshares
    have hge := hnamesake.oldest r' hr'.mem hr'.tags hr'.shares
    rw [hdistinct.eq_of_le hmem' hselected' hmem hselected hle hge]
    exact heq

/-- Two runs on the development branch. -/
def developDb : Db where
  reports := [developReport 1 "9a40", developReport 2 "51ca"]
  data := [dappRow 1 "uniswap" "swap", dappRow 2 "uniswap" "swap"]
  nextReportId := 3
  reports_nodup := by decide
  reports_lt := by decide
  data_refers := by decide

theorem developDb_newest : IsNewest developDb .evm "latest" (developReport 2 "51ca") where
  mem := by decide
  selected := by decide
  newest := by decide

def developComparison : CompareCommand where
  repo := .evm
  evmTag := "latest"
  proxyTag := "latest"
  versionBranch := "latest"
  historyDepthLimit := 10

/-- The title names the commit of the run before. -/
theorem compareDappResults_develop :
    DistinctUnder developDb .evm "latest" ∧
      IsNewest developDb .evm "latest" (developReport 2 "51ca") ∧
      developComparison.HasTags (developReport 2 "51ca") ∧
      ∃ c, compareDappResults asciiPackages developDb developComparison = .ok c ∧
        c.comparedServiceCommitSha = some "9a40" ∧
        developComparison.commitShas (developReport 2 "51ca").evmCommitSha
            (developReport 2 "51ca").proxyCommitSha ≠
          .ok (c.comparedServiceCommitSha, c.otherServiceCommitSha) :=
  ⟨by decide, developDb_newest, ⟨rfl, rfl⟩, _, rfl, by decide, by decide⟩

theorem compareDappResults_shas_iff_develop :
    ((∃ c, compareDappResults asciiPackages developDb developComparison = .ok c) ↔
      (∃ previousTags, developComparison.previousTags asciiPackages developDb = .ok previousTags) ∧
        developComparison.repo ≠ .tests ∧ 1 ≤ developComparison.historyDepthLimit ∧
        developDb.rowsOf (developReport 2 "51ca") ≠ []) ∧
    ∀ c, compareDappResults asciiPackages developDb developComparison = .ok c →
      c.titleEnd = titleEnd .evm "latest" "latest" c.comparedServiceCommitSha
        c.otherServiceCommitSha ∧
      (developComparison.commitShas (some "51ca") "88e0" =
          .ok (c.comparedServiceCommitSha, c.otherServiceCommitSha) ↔
        (developComparison.ComparesWithItself asciiPackages →
          ∀ r, IsOldestNamesake developDb developComparison (developReport 2 "51ca") r →
            r.evmCommitSha = some "51ca" ∧ r.proxyCommitSha = "88e0")) :=
  compareDappResults_shas_iff asciiPackages developDb developComparison (by decide)
    (developReport 2 "51ca") developDb_newest ⟨rfl, rfl⟩

end NeonTests.ResultsDb
