import NeonTests.CostReport.Definitions

/-!
# Cost reports — what the table loses, and when

`prepare_report_data` keeps every action and tells all rows apart exactly if the
names in the files are apart: no report is replaced by a later one of its name,
and no two actions of a dApp get one name.

* `actionRows_spec` — the loop over a dApp's actions: one row each, named by
  `labels`;
* `prepareReportData_spec` — the whole table, over the dictionary of reports;
* `loses_nothing_iff` — the condition on the files, exact.
-/

namespace NeonTests.CostReport

open Fallible Occurrences Python

variable {chain : Chain} {lower : String → String}

-- ---------------------------------------------------------------------------
-- What is asked of the table
-- ---------------------------------------------------------------------------

/-- The reports with an `actions` key, in file order. -/
def namedReports (files : List ReportFile) : List (String × List Action) :=
  files.flatMap fun file => file.reports.filterMap fun r => r.actions.map fun as => (r.name, as)

/-- Every action of every report, under the report's name. -/
def allActions (reports : List (String × List Action)) : List (String × Action) :=
  reports.flatMap fun r => r.2.map fun a => (r.1, a)

/-- The requests about an action's transaction are answered. -/
def Chain.Answers (chain : Chain) (a : Action) : Prop :=
  (∃ r, chain.getSolanaAccountsTransactionsComputeUnits a.tx = .ok r) ∧
    ∃ tx, chain.getTransactionByHash a.tx = .ok tx

/-- The row is this action's: under its dApp and its name, perhaps numbered, with
its own numbers. -/
structure RowFor (chain : Chain) (lower : String → String) (x : String × Action) (row : Row) :
    Prop where
  dappName : row.dappName = strip (lower x.1)
  action : row.action = strip (lower x.2.name) ∨
    ∃ k, row.action = numbered (strip (lower x.2.name)) k
  accounts : chain.getSolanaAccountsTransactionsComputeUnits x.2.tx =
    .ok (row.accCount, row.trxCount, row.computeUnits)
  gasEstimated : ∃ tx, chain.getTransactionByHash x.2.tx = .ok tx ∧
    row.gasEstimated = estimatedGas tx
  gasUsed : row.gasUsed = x.2.usedGas

/-- One row for every action, and no others. -/
def Complete (chain : Chain) (lower : String → String) (files : List ReportFile)
    (rows : List Row) : Prop :=
  ∃ xs, xs.Perm (allActions (namedReports files)) ∧ List.Forall₂ (RowFor chain lower) xs rows

def Row.key (row : Row) : String × String := (row.dappName, row.action)

/-- Nothing lost and nothing merged; no table at all only where there is no
action. -/
def LosesNothing (chain : Chain) (lower : String → String) (files : List ReportFile) :
    Except PyError (List Row) → Prop
  | .ok rows => Complete chain lower files rows ∧ (rows.map Row.key).Nodup
  | .error _ => allActions (namedReports files) = []

-- ---------------------------------------------------------------------------
-- The condition
-- ---------------------------------------------------------------------------

/-- The action names of a report, as the table would write them unnumbered. -/
def names (lower : String → String) (actions : List Action) : List String :=
  actions.map fun a => strip (lower a.name)

/-- The names in the files are apart. -/
structure NamesApart (lower : String → String) (files : List ReportFile) : Prop where
  /-- a report followed by another of the same name has no actions -/
  kept : (namedReports files).Pairwise fun r s => r.1 = s.1 → r.2 = []
  /-- within a report, no name occurring once is a repeated one with a number -/
  within : ∀ r ∈ namedReports files, ∀ x, (names lower r.2).count x = 1 →
    ¬ Numbered (names lower r.2) x
  /-- two reports of one dApp, in the table's spelling, have no name in common:
  not unrepeated, not repeated, and not one with the other's number -/
  between : (namedReports files).Pairwise fun r s => strip (lower r.1) = strip (lower s.1) →
    Apart (names lower r.2) (names lower s.2)

-- ---------------------------------------------------------------------------
-- The dictionary of reports
-- ---------------------------------------------------------------------------

theorem foldl_addReport (rs : List Report) (d : Dict String (List Action)) :
    rs.foldl addReport d = (rs.filterMap fun r => r.actions.map fun as => (r.name, as)).foldl
      (fun d x => d.set x.1 x.2) d := by
  induction rs generalizing d with
  | nil => rfl
  | cons r rs ih =>
    obtain ⟨name, _ | actions⟩ := r <;> exact ih _

theorem collectReports_eq (files : List ReportFile) :
    collectReports files = Dict.ofList (namedReports files) := by
  have hfold (d : Dict String (List Action)) :
      files.foldl (fun reports file => file.reports.foldl addReport reports) d =
        (namedReports files).foldl (fun d x => d.set x.1 x.2) d := by
    induction files generalizing d with
    | nil => rfl
    | cons file files ih =>
      show files.foldl _ (file.reports.foldl addReport d) = _
      rw [ih, foldl_addReport, ← List.foldl_append]
      rfl
  exact hfold .empty

-- ---------------------------------------------------------------------------
-- Numbering
-- ---------------------------------------------------------------------------

theorem mem_duplicateActions {all : List String} {b : String} :
    b ∈ duplicateActions (Dict.counter all) ↔ 1 < all.count b := by
  rw [duplicateActions, List.mem_map]
  constructor
  · rintro ⟨⟨b', n⟩, hmem, rfl⟩
    obtain ⟨hitem, hn⟩ := List.mem_filter.mp hmem
    have hget := (Dict.get?_eq_some_iff _ _ _).mpr hitem
    rw [Dict.get?_counter] at hget
    split at hget
    · rw [Option.some.inj hget]
      simpa using hn
    · cases hget
  · intro hb
    have hmem : b ∈ all := List.count_pos_iff.mp (by omega)
    have hget : (Dict.counter all).get? b = some (all.count b) := by
      rw [Dict.get?_counter, if_pos hmem]
    exact ⟨(b, all.count b), List.mem_filter.mpr
      ⟨(Dict.get?_eq_some_iff _ _ _).mp hget, by simpa using hb⟩, rfl⟩

/-- The counters, after the names in `seen`. -/
def Counts (all seen : List String) (added : Dict String Nat) : Prop :=
  ∀ b, 1 < all.count b → added.get? b = some (seen.count b + 1)

theorem counts_start (all : List String) :
    Counts all [] (Dict.ofList ((duplicateActions (Dict.counter all)).map fun a => (a, 1))) := by
  intro b hb
  rw [List.count_nil]
  cases hget : (Dict.ofList ((duplicateActions (Dict.counter all)).map fun a => (a, 1))).get? b with
  | none =>
    have := Dict.get?_ofList_eq_none.mp hget (b, 1)
      (List.mem_map.mpr ⟨b, mem_duplicateActions.mpr hb, rfl⟩)
    exact (this rfl).elim
  | some n =>
    have hmem := Dict.mem_ofList ((Dict.get?_eq_some_iff _ _ _).mp hget)
    obtain ⟨_, _, heq⟩ := List.mem_map.mp hmem
    rw [← (Prod.mk.inj heq).2]

/-- One name: it gets its label, and the counters move on. -/
theorem uniqueActionName_spec {all seen : List String} {added : Dict String Nat}
    (h : Counts all seen added) (b : String) :
    ∃ added', uniqueActionName (duplicateActions (Dict.counter all)) added b =
      .ok (label all (b, seen.count b), added') ∧ Counts all (b :: seen) added' := by
  unfold uniqueActionName
  by_cases hb : 1 < all.count b
  · have hitem : getItem added b = .ok (seen.count b + 1) := by
      rw [getItem, h b hb]
    rw [if_pos (mem_duplicateActions.mpr hb), hitem]
    refine ⟨added.set b (seen.count b + 1 + 1), ?_, ?_⟩
    · show Except.ok _ = _
      rw [label, if_pos hb]
    · intro b' hb'
      rw [Dict.get?_set, List.count_cons]
      by_cases hbb : b = b'
      · subst hbb
        simp
      · simp [hbb, h b' hb']
  · rw [if_neg (fun hmem => hb (mem_duplicateActions.mp hmem))]
    refine ⟨added, ?_, ?_⟩
    · show Except.ok _ = _
      rw [label, if_neg hb]
    · intro b' hb'
      have hbb : b ≠ b' := fun e => hb (e ▸ hb')
      rw [List.count_cons, h b' hb']
      simp [hbb]

theorem label_cases (all : List String) (b : String) (k : Nat) :
    label all (b, k) = b ∨ ∃ n, label all (b, k) = numbered b n := by
  unfold label
  split
  · exact .inr ⟨_, rfl⟩
  · exact .inl rfl

-- ---------------------------------------------------------------------------
-- Rows
-- ---------------------------------------------------------------------------

variable (lower) in
/-- The loop, after the names in `seen`: a row for each action, under its label. -/
theorem actionRows_spec (app : String) {all seen : List String} {added : Dict String Nat}
    (h : Counts all seen added) {actions : List Action}
    (hanswers : ∀ a ∈ actions, chain.Answers a) :
    ∃ rows, actionRows chain lower app (duplicateActions (Dict.counter all)) added actions =
        .ok rows ∧
      List.Forall₂ (RowFor chain lower) (actions.map fun a => (app, a)) rows ∧
      rows.map Row.key = (occurrences seen (names lower actions)).map fun x =>
        (strip (lower app), label all x) := by
  induction actions generalizing seen added with
  | nil => exact ⟨[], rfl, .nil, rfl⟩
  | cons a actions ih =>
    obtain ⟨added', hname, hcounts⟩ := uniqueActionName_spec h (strip (lower a.name))
    obtain ⟨⟨⟨accounts, trx, computeUnits⟩, haccounts⟩, tx, htx⟩ := hanswers a List.mem_cons_self
    obtain ⟨rows, hrows, hall, hkeys⟩ := ih hcounts fun b hb => hanswers b (List.mem_cons_of_mem _ hb)
    refine ⟨⟨strip (lower app), label all (strip (lower a.name), seen.count (strip (lower a.name))),
      accounts, trx, estimatedGas tx, a.usedGas, computeUnits⟩ :: rows, ?_, .cons ?_ hall, ?_⟩
    · rw [actionRows, hname, ok_bind]
      dsimp only
      rw [haccounts, ok_bind]
      dsimp only
      rw [htx, ok_bind, hrows, ok_bind]
      rfl
    · exact ⟨rfl, label_cases _ _ _, haccounts, ⟨tx, htx, rfl⟩, rfl⟩
    · rw [List.map_cons, hkeys]
      rfl

/-- The keys a list of reports gets, before any dictionary. -/
def keysOf (lower : String → String) (reports : List (String × List Action)) :
    List (String × String) :=
  reports.flatMap fun r => (labels (names lower r.2)).map fun l => (strip (lower r.1), l)

theorem appRows_spec {app : String} {actions : List Action}
    (hanswers : ∀ a ∈ actions, chain.Answers a) :
    ∃ rows, appRows chain lower app actions = .ok rows ∧
      List.Forall₂ (RowFor chain lower) (actions.map fun a => (app, a)) rows ∧
      rows.map Row.key = (labels (names lower actions)).map fun l => (strip (lower app), l) := by
  obtain ⟨rows, hrows, hall, hkeys⟩ := actionRows_spec lower app
    (counts_start (names lower actions)) hanswers
  refine ⟨rows, hrows, hall, ?_⟩
  rw [hkeys, labels, List.map_map]
  rfl

/-- The tables of the dApps, put one after the other. -/
theorem flatten_tables {reports : List (String × List Action)} {tables : List (List Row)}
    (h : List.Forall₂ (fun r rows =>
      List.Forall₂ (RowFor chain lower) (r.2.map fun a => (r.1, a)) rows ∧
      rows.map Row.key = (labels (names lower r.2)).map fun l => (strip (lower r.1), l))
      reports tables) :
    List.Forall₂ (RowFor chain lower) (allActions reports) tables.flatten ∧
      tables.flatten.map Row.key = keysOf lower reports := by
  induction h with
  | nil => exact ⟨.nil, rfl⟩
  | cons hone _ ih =>
    obtain ⟨hall, hkeys⟩ := hone
    refine ⟨List.rel_append hall ih.1, ?_⟩
    rw [List.flatten_cons, List.map_append, hkeys, ih.2]
    rfl

variable (lower) in
/-- The whole table: the rows of the dictionary's reports, or an error if there
are none. -/
theorem prepareReportData_spec (directory : String) {files : List ReportFile}
    (hanswers : ∀ x ∈ allActions (namedReports files), chain.Answers x.2) :
    ∃ rows, List.Forall₂ (RowFor chain lower)
        (allActions (Dict.ofList (namedReports files)).items) rows ∧
      rows.map Row.key = keysOf lower (Dict.ofList (namedReports files)).items ∧
      prepareReportData chain lower directory files =
        if rows = [] then .error (.exception s!"no reports found in {directory}") else .ok rows := by
  obtain ⟨tables, htables, hall⟩ := mapM_eq_ok
    (f := fun x : String × List Action => appRows chain lower x.1 x.2)
    fun r (hr : r ∈ (Dict.ofList (namedReports files)).items) => appRows_spec fun a ha =>
      hanswers (r.1, a) (List.mem_flatMap.mpr
        ⟨r, Dict.mem_ofList hr, List.mem_map.mpr ⟨a, ha, rfl⟩⟩)
  obtain ⟨hrows, hkeys⟩ := flatten_tables hall
  refine ⟨tables.flatten, hrows, hkeys, ?_⟩
  rw [prepareReportData, collectReports_eq, htables, ok_bind]
  cases tables.flatten <;> rfl

/-- A prepared table is not empty. -/
theorem ne_nil_of_prepareReportData {directory : String} {files : List ReportFile}
    {rows : List Row} (h : prepareReportData chain lower directory files = .ok rows) :
    rows ≠ [] := by
  obtain ⟨tables, _, h⟩ := bind_eq_ok.mp h
  dsimp only at h
  split at h
  · cases h
  · next hne =>
    obtain rfl := pure_eq_ok.mp h
    rwa [Ne, ← List.isEmpty_iff]

-- ---------------------------------------------------------------------------
-- Exactness
-- ---------------------------------------------------------------------------

theorem length_allActions (reports : List (String × List Action)) :
    (allActions reports).length = Dict.size reports := by
  rw [allActions, Dict.size, List.length_flatMap, List.length_flatMap]
  congr 1
  exact List.map_congr_left fun r _ => List.length_map _

/-- The keys of distinct dApps, or of one dApp's reports with nothing in common. -/
theorem nodup_keysOf_iff {reports : List (String × List Action)} :
    (keysOf lower reports).Nodup ↔
      (∀ r ∈ reports, (labels (names lower r.2)).Nodup) ∧
      reports.Pairwise fun r s => strip (lower r.1) = strip (lower s.1) →
        Apart (names lower r.2) (names lower s.2) := by
  rw [keysOf, List.nodup_flatMap]
  refine and_congr ?_ ?_
  · refine forall₂_congr fun r _ => ?_
    exact List.nodup_map_iff fun a b h => (Prod.mk.inj h).2
  · have hpair (r s : String × List Action) :
        ((labels (names lower r.2)).map fun l => (strip (lower r.1), l)).Disjoint
          ((labels (names lower s.2)).map fun l => (strip (lower s.1), l)) ↔
        (strip (lower r.1) = strip (lower s.1) → Apart (names lower r.2) (names lower s.2)) := by
      rw [← disjoint_labels_iff]
      constructor
      · intro h heq l hl hl'
        exact h (List.mem_map.mpr ⟨l, hl, rfl⟩) (List.mem_map.mpr ⟨l, hl', by rw [heq]⟩)
      · rintro h ⟨d, l⟩ hl hl'
        obtain ⟨l₁, hl₁, heq₁⟩ := List.mem_map.mp hl
        obtain ⟨l₂, hl₂, heq₂⟩ := List.mem_map.mp hl'
        obtain ⟨hd, rfl⟩ := Prod.mk.inj (heq₁.trans heq₂.symm)
        exact h hd hl₁ hl₂
    exact List.Pairwise.iff hpair

theorem namesApart_iff {files : List ReportFile} :
    NamesApart lower files ↔
      Dict.Kept (namedReports files) ∧ (keysOf lower (namedReports files)).Nodup := by
  rw [nodup_keysOf_iff]
  simp only [nodup_labels_iff]
  exact ⟨fun h => ⟨h.kept, h.within, h.between⟩, fun ⟨hkept, hwithin, hbetween⟩ =>
    ⟨hkept, hwithin, hbetween⟩⟩

theorem allActions_eq_nil_iff {reports : List (String × List Action)} :
    allActions reports = [] ↔ ∀ r ∈ reports, r.2 = [] := by
  rw [allActions, List.flatMap_eq_nil_iff]
  exact forall₂_congr fun r _ => List.map_eq_nil_iff

theorem allActions_perm {reports : List (String × List Action)} (h : Dict.Kept reports) :
    (allActions (Dict.ofList reports).items).Perm (allActions reports) :=
  Dict.flatMap_ofList_perm (fun _ => rfl) h

/-- No action anywhere: there is nothing to be apart. -/
theorem namesApart_of_empty {files : List ReportFile}
    (h : allActions (namedReports files) = []) : NamesApart lower files := by
  rw [allActions_eq_nil_iff] at h
  rw [namesApart_iff]
  refine ⟨?_, ?_⟩
  · exact List.pairwise_of_forall_mem_list fun r hr _ _ _ => h r hr
  · have hnil : keysOf lower (namedReports files) = [] := by
      rw [keysOf, List.flatMap_eq_nil_iff]
      intro r hr
      rw [h r hr]
      rfl
    rw [hnil]
    exact List.nodup_nil

/-- **Exactly when nothing is lost.** With the chain's answers at hand, the table
has one row for every action and no key twice if and only if the names in the
files are apart. -/
theorem loses_nothing_iff (chain : Chain) (lower : String → String) (directory : String)
    (files : List ReportFile)
    (hanswers : ∀ x ∈ allActions (namedReports files), chain.Answers x.2) :
    LosesNothing chain lower files (prepareReportData chain lower directory files) ↔
      NamesApart lower files := by
  obtain ⟨rows, hrows, hkeys, hrun⟩ := prepareReportData_spec lower directory hanswers
  obtain ⟨hle, hkept⟩ := Dict.size_ofList (namedReports files)
  have hlen : rows.length = Dict.size (Dict.ofList (namedReports files)).items := by
    rw [← hrows.length_eq, length_allActions]
  have hnodup (h : Dict.Kept (namedReports files)) :
      (rows.map Row.key).Nodup ↔ (keysOf lower (namedReports files)).Nodup := by
    rw [hkeys]
    exact (Dict.flatMap_ofList_perm (fun _ => rfl) h).nodup_iff
  rw [hrun]
  split
  · -- no row, so nothing may be asked for
    next hnil =>
    refine ⟨namesApart_of_empty, ?_⟩
    intro h
    rw [hnil, List.forall₂_nil_right_iff] at hrows
    have hperm := allActions_perm (namesApart_iff.mp h).1
    rw [hrows] at hperm
    exact hperm.nil_eq.symm
  · next hne =>
    rw [namesApart_iff]
    constructor
    · rintro ⟨⟨xs, hperm, hforall⟩, hdistinct⟩
      have hsize : Dict.size (Dict.ofList (namedReports files)).items =
          Dict.size (namedReports files) := by
        rw [← hlen, ← hforall.length_eq, hperm.length_eq, length_allActions]
      exact ⟨hkept hsize, (hnodup (hkept hsize)).mp hdistinct⟩
    · rintro ⟨hapart, hdistinct⟩
      exact ⟨⟨_, allActions_perm hapart, hrows⟩, (hnodup hapart).mpr hdistinct⟩

-- ---------------------------------------------------------------------------
-- A name that looks numbered
-- ---------------------------------------------------------------------------

/-- A chain with one answer to everything. -/
def sampleChain : Chain where
  getSolanaAccountsTransactionsComputeUnits _ := .ok (2, 12, 8946)
  getTransactionByHash _ := .ok (some ⟨122879⟩)

/-- `str.lower` of names in ASCII. -/
def asciiLower (s : String) : String := String.ofList (s.toList.map Char.toLower)

def swapReport (names : List String) : ReportFile :=
  .object ⟨"Uniswap", some (names.map fun name => ⟨name, "0x01", 21000⟩)⟩

/-- Two swaps and a "swap 1": the first swap is given the name of the third
action. -/
theorem prepareReportData_swaps : ¬ LosesNothing sampleChain asciiLower
    [swapReport ["Swap", "swap", "swap 1"]]
    (prepareReportData sampleChain asciiLower "reports" [swapReport ["Swap", "swap", "swap 1"]]) := by
  rintro ⟨_, hnodup⟩
  revert hnodup
  decide

theorem loses_nothing_iff_swaps : LosesNothing sampleChain asciiLower
      [swapReport ["Swap", "mint"]]
      (prepareReportData sampleChain asciiLower "reports" [swapReport ["Swap", "mint"]]) ↔
    NamesApart asciiLower [swapReport ["Swap", "mint"]] :=
  loses_nothing_iff sampleChain asciiLower "reports" [swapReport ["Swap", "mint"]]
    fun _ _ => ⟨⟨_, rfl⟩, ⟨_, rfl⟩⟩

end NeonTests.CostReport
