import NeonTests.CostReport.Prepare
import NeonTests.Lib.Decimal
import NeonTests.Lib.StableSort
import NeonTests.ResultsDb.Plots

/-!
# Cost reports — the sections of the markdown report

`report_data_to_markdown` and `split_action` of `deploy/cli/cost_report.py`. The percentage
column, `DataFrame.to_markdown` and `str.title` are parameters.

* `splitAction_numbered` — the pattern takes a numbered name apart where it was put together;
* `sortRows_groups` — a section, cut at the groups of equal text and number;
* `reportDataToMarkdown_lists` — the repetitions of a name in the report, in the order in
  which they were met.
-/

namespace NeonTests.CostReport

open Fallible Occurrences Python ResultsDb StableSort

-- ---------------------------------------------------------------------------
-- Splitting a name
-- ---------------------------------------------------------------------------

/-- `\s*(\d*)$`: the digits. No character is white space and a digit, so there is nothing
to gain from taking fewer of either. -/
def matchNumber (rest : List Char) : Option (List Char) :=
  let rest := rest.dropWhile isSpace
  -- `$` also stands before a line break that ends the string
  if rest.dropWhile isDecimal ∈ [[], ['\n']] then some (rest.takeWhile isDecimal) else none

/-- `(.+?)` and what follows it: as few characters as there can be, after those in `text`. -/
def lazyMatch (text : List Char) : List Char → Option (List Char × List Char)
  | [] => none
  | c :: rest =>
    if c = '\n' then none
    else
      match matchNumber rest with
      | some digits => some (text ++ [c], digits)
      | none => lazyMatch (text ++ [c]) rest

def splitAction (action : String) : Except PyError (String × Nat) :=
  match lazyMatch [] action.toList with
  | some (text, digits) =>
    return (String.ofList text, if isdigit digits then int digits else 0)
  -- `None` has no `group`
  | none => throw .attributeError

-- ---------------------------------------------------------------------------
-- The report
-- ---------------------------------------------------------------------------

/-- A row of a section: without the dApp, with the percentage. -/
structure MarkdownRow where
  action : String
  accCount : Nat
  trxCount : Nat
  gasEstimated : Option Nat
  gasUsed : Int
  gasUsedPercent : String
  computeUnits : Nat
  deriving DecidableEq, Repr

/-- The rows of a dApp by `ACTION_TEXT` and `ACTION_NUM`. -/
def sortRows (dappDf : List Row) : Except PyError (List Row) := do
  let keyed ← dappDf.mapM fun row => do return (← splitAction row.action, row)
  return (sorted (fun x => toLex x.1) keyed).map Prod.snd

def sections (df : List Row) : Except PyError (List (String × List Row)) :=
  (unique (df.map Row.dappName)).mapM fun dappName => do
    return (dappName, ← sortRows (df.filter fun row => row.dappName = dappName))

section

variable (percent : Row → String) (toMarkdown : List MarkdownRow → String)
  (title : String → String)

def markdownRow (row : Row) : MarkdownRow where
  action := row.action
  accCount := row.accCount
  trxCount := row.trxCount
  gasEstimated := row.gasEstimated
  gasUsed := row.gasUsed
  gasUsedPercent := percent row
  computeUnits := row.computeUnits

def renderSection (dappName : String) (dappDf : List Row) : String :=
  "\n## Cost Report for \"" ++ title dappName ++ "\" dApp\n\n" ++
    toMarkdown (dappDf.map (markdownRow percent)) ++ "\n"

def reportDataToMarkdown (df : List Row) : Except PyError String := do
  let dapps ← sections df
  return String.join (dapps.map fun dapp => renderSection percent toMarkdown title dapp.1 dapp.2)

end

theorem map_action_markdownRow (percent : Row → String) (df : List Row) :
    (df.map (markdownRow percent)).map MarkdownRow.action = df.map Row.action := by
  rw [List.map_map]
  rfl

-- ---------------------------------------------------------------------------
-- The pattern
-- ---------------------------------------------------------------------------

theorem dropWhile_append_cons {p : Char → Bool} {c : Char} (hc : p c = false)
    (front rest : List Char) :
    (front ++ c :: rest).dropWhile p = front.dropWhile p ++ c :: rest := by
  induction front with
  | nil => exact List.dropWhile_cons_of_neg (by simp [hc])
  | cons d front ih =>
    by_cases hd : p d = true
    · rw [List.cons_append, List.dropWhile_cons_of_pos hd, List.dropWhile_cons_of_pos hd, ih]
    · rw [List.cons_append, List.dropWhile_cons_of_neg hd, List.dropWhile_cons_of_neg hd]
      rfl

/-- Something else before the blank is no number. -/
theorem matchNumber_eq_none {c : Char} (hc : isSpace c = false) (front rest : List Char) :
    matchNumber (front ++ c :: ' ' :: rest) = none := by
  have hspaces := dropWhile_append_cons hc front (' ' :: rest)
  have hdigits := dropWhile_append_cons isDecimal_space (front.dropWhile isSpace ++ [c]) rest
  rw [List.append_assoc, List.singleton_append] at hdigits
  rw [matchNumber, hspaces, hdigits, if_neg]
  intro hmem
  -- the blank is still there
  obtain ⟨d, hd⟩ : ∃ d, ((front.dropWhile isSpace ++ [c]).dropWhile isDecimal) = d := ⟨_, rfl⟩
  rw [hd] at hmem
  have hblank : ' ' ∈ d ++ ' ' :: rest := by simp
  rcases List.mem_pair.mp hmem with h | h
  · rw [h] at hblank
    cases hblank
  · rw [h] at hblank
    exact absurd hblank (by decide)

theorem matchNumber_blank (n : Nat) :
    matchNumber (' ' :: (toString n).toList) = some (toString n).toList := by
  have hblank : (' ' :: (toString n).toList).dropWhile isSpace = (toString n).toList := by
    rw [List.dropWhile_cons_of_pos (by decide), List.dropWhile_eq_self_iff]
    intro hlen
    rw [isSpace_of_isDigit (isDigit_of_mem_toString (List.getElem_mem hlen))]
    exact Bool.false_ne_true
  have hall : ∀ c ∈ (toString n).toList, isDecimal c = true := fun c => isDecimal_of_mem_toString
  rw [matchNumber, hblank, List.dropWhile_eq_nil_iff.mpr hall, List.takeWhile_eq_self_iff.mpr hall]
  rfl

/-- The lazy part goes on to the first place from which the rest matches. -/
theorem lazyMatch_append (text : List Char) {front rest digits : List Char} {c : Char}
    (hlines : '\n' ∉ front ++ [c]) (hmatch : matchNumber rest = some digits)
    (hlater : ∀ d behind, d :: behind <:+ front → matchNumber (behind ++ c :: rest) = none) :
    lazyMatch text (front ++ c :: rest) = some (text ++ front ++ [c], digits) := by
  induction front generalizing text with
  | nil =>
    have hc : c ≠ '\n' := fun h => hlines (by simp [h])
    rw [List.nil_append, lazyMatch, if_neg hc, hmatch]
    simp
  | cons d front ih =>
    have hd : d ≠ '\n' := fun h => hlines (by simp [h])
    rw [List.cons_append, lazyMatch, if_neg hd, hlater d front (List.suffix_refl _)]
    dsimp only
    rw [ih _ (fun h => hlines (List.mem_cons_of_mem d h)) fun e behind h =>
      hlater e behind (h.trans (List.suffix_cons d front))]
    simp

/-- **The numbering is inverted**: a numbered name splits into the name and the number. -/
theorem splitAction_numbered {base : String} (hne : base ≠ "") (hstrip : strip base = base)
    (hlines : '\n' ∉ base.toList) (n : Nat) : splitAction (numbered base n) = .ok (base, n) := by
  have hnil : base.toList ≠ [] := fun h => hne (String.toList_eq_nil_iff.mp h)
  obtain ⟨c, hc⟩ : ∃ c, base.toList.getLast hnil = c := ⟨_, rfl⟩
  have hlast := isSpace_getLast hstrip hnil
  have hcut : base.toList = base.toList.dropLast ++ [c] := by
    rw [← hc, List.dropLast_append_getLast]
  rw [hc] at hlast
  have hlist : (numbered base n).toList =
      base.toList.dropLast ++ c :: (' ' :: (toString n).toList) := by
    rw [numbered, String.toList_append, String.toList_append]
    conv_lhs => rw [hcut]
    simp
  have hmatch := lazyMatch_append [] (by rw [← hcut]; exact hlines) (matchNumber_blank n)
    fun _ behind _ => matchNumber_eq_none hlast behind (toString n).toList
  rw [splitAction, hlist, hmatch]
  simp only [List.nil_append, ← hcut, isdigit_toString, int_toString, if_true]
  rw [String.ofList_toList]
  rfl

theorem lazyMatch_isSome (text : List Char) {rest : List Char} (hne : rest ≠ [])
    (hlines : '\n' ∉ rest) :
    (lazyMatch text rest).isSome = true := by
  induction rest generalizing text with
  | nil => exact absurd rfl hne
  | cons c rest ih =>
    rw [lazyMatch, if_neg fun h => hlines (by simp [h])]
    cases hrest : matchNumber rest with
    | some digits => rfl
    | none =>
      refine ih _ (fun h => ?_) fun h => hlines (List.mem_cons_of_mem c h)
      rw [h] at hrest
      cases hrest

/-- A name on one line is split, somewhere. -/
theorem splitAction_returns {action : String} (hne : action ≠ "") (hlines : '\n' ∉ action.toList) :
    ∃ key, splitAction action = .ok key := by
  have hnil : action.toList ≠ [] := fun h => hne (String.toList_eq_nil_iff.mp h)
  obtain ⟨x, hx⟩ := Option.isSome_iff_exists.mp (lazyMatch_isSome [] hnil hlines)
  rw [splitAction, hx]
  exact ⟨_, rfl⟩

-- ---------------------------------------------------------------------------
-- A section
-- ---------------------------------------------------------------------------

/-- The rows of a dApp that are split into this text and number, in the table's order. -/
def rowsSplitAs (df : List Row) (dapp base : String) (k : Nat) : List Row :=
  df.filter fun row => row.dappName = dapp ∧ splitAction row.action = .ok (base, k)

/-- The row is sorted before these texts and numbers. -/
def Before (row : Row) (key : String × Nat) : Prop :=
  ∃ key', splitAction row.action = .ok key' ∧ toLex key' < toLex key

/-- The row is sorted behind these texts and numbers. -/
def Behind (row : Row) (key : String × Nat) : Prop :=
  ∃ key', splitAction row.action = .ok key' ∧ toLex key < toLex key'

section

variable {dappDf : List Row} {keyed : List ((String × Nat) × Row)}

theorem keyed_spec (h : (dappDf.mapM fun row => do
      return (← splitAction row.action, row)) = Except.ok keyed) :
    keyed.map Prod.snd = dappDf ∧ ∀ x ∈ keyed, splitAction x.2.action = .ok x.1 := by
  have hall := forall₂_of_mapM h
  clear h
  induction hall with
  | nil => exact ⟨rfl, fun x hx => by cases hx⟩
  | @cons row x rows keyed hrow _ ih =>
    obtain ⟨key, hkey, hx⟩ := bind_eq_ok.mp hrow
    obtain rfl := pure_eq_ok.mp hx
    refine ⟨by rw [List.map_cons, ih.1], fun y hy => ?_⟩
    rcases List.mem_cons.mp hy with rfl | hy
    · exact hkey
    · exact ih.2 y hy

theorem map_group_keyed (hkeys : ∀ x ∈ keyed, splitAction x.2.action = .ok x.1)
    (key : String × Nat) :
    (group (fun x => toLex x.1) keyed (toLex key)).map Prod.snd =
      (keyed.map Prod.snd).filter fun row => splitAction row.action = .ok key := by
  rw [group, List.filter_map]
  congr 1
  refine List.filter_congr fun x hx => ?_
  rw [Function.comp_apply, decide_eq_decide, hkeys x hx, Except.ok.injEq, toLex_inj]

theorem mem_numbers_iff {base : String} {m : Nat} (k : String ×ₗ Nat) :
    k ∈ (List.range' 1 m).map (fun n => toLex (base, n)) ↔
      toLex (base, 1) ≤ k ∧ k ≤ toLex (base, m) := by
  obtain ⟨⟨text, n⟩, rfl⟩ := toLex.surjective k
  rw [List.mem_map, Prod.Lex.toLex_le_toLex, Prod.Lex.toLex_le_toLex]
  constructor
  · rintro ⟨n', hn', heq⟩
    obtain ⟨rfl, rfl⟩ := Prod.mk.inj (toLex.injective heq)
    have := List.mem_range'_1.mp hn'
    exact ⟨.inr ⟨rfl, by dsimp only; omega⟩, .inr ⟨rfl, by dsimp only; omega⟩⟩
  · rintro ⟨hlow, hhigh⟩
    rcases hlow with hlow | ⟨htext, hlow⟩
    · rcases hhigh with hhigh | ⟨htext, _⟩
      · exact absurd hhigh (lt_asymm hlow)
      · exact absurd htext hlow.ne'
    · rcases hhigh with hhigh | ⟨_, hhigh⟩
      · exact absurd htext hhigh.ne'
      · dsimp only at htext hlow hhigh
        subst htext
        exact ⟨n, List.mem_range'_1.mpr (by omega), rfl⟩

/-- A section, cut at the numbers of a name: a group for each number, each in the order of
the table. -/
theorem sortRows_groups {sorted : List Row} (h : sortRows dappDf = .ok sorted) (base : String)
    (m : Nat) :
    ∃ before behind, sorted = before ++ (List.range' 1 m).flatMap
        (fun k => dappDf.filter fun row => splitAction row.action = .ok (base, k)) ++ behind ∧
      (∀ row ∈ before, Before row (base, 1)) ∧ ∀ row ∈ behind, Behind row (base, m) := by
  obtain ⟨keyed, hkeyed, hsorted⟩ := bind_eq_ok.mp h
  obtain rfl := pure_eq_ok.mp hsorted
  obtain ⟨hrows, hkeys⟩ := keyed_spec hkeyed
  have hrising : ((List.range' 1 m).map fun n => toLex (base, n)).Pairwise (· < ·) := by
    rw [List.pairwise_map]
    refine (List.pairwise_lt_range' (s := 1) (n := m)).imp fun hlt => ?_
    exact Prod.Lex.toLex_lt_toLex.mpr (.inr ⟨rfl, hlt⟩)
  obtain ⟨before, behind, hcut, hbefore, hbehind⟩ :=
    sorted_eq_groups (fun x => toLex x.1) keyed hrising mem_numbers_iff
  have hmem : ∀ x ∈ before ++ behind, x ∈ keyed := by
    intro x hx
    refine (sorted_perm (fun x => toLex x.1) keyed).mem_iff.mp ?_
    rw [hcut]
    rcases List.mem_append.mp hx with hx | hx
    · exact List.mem_append_left _ (List.mem_append_left _ hx)
    · exact List.mem_append_right _ hx
  refine ⟨before.map Prod.snd, behind.map Prod.snd, ?_, ?_, ?_⟩
  · rw [hcut, List.map_append, List.map_append, List.flatMap_map, List.map_flatMap]
    simp only [map_group_keyed hkeys, hrows]
  · intro row hrow
    obtain ⟨x, hx, rfl⟩ := List.mem_map.mp hrow
    exact ⟨x.1, hkeys x (hmem x (List.mem_append_left _ hx)), hbefore x hx⟩
  · intro row hrow
    obtain ⟨x, hx, rfl⟩ := List.mem_map.mp hrow
    exact ⟨x.1, hkeys x (hmem x (List.mem_append_right _ hx)), hbehind x hx⟩

end

theorem sortRows_perm {dappDf sorted : List Row} (h : sortRows dappDf = .ok sorted) :
    sorted.Perm dappDf := by
  obtain ⟨keyed, hkeyed, hsorted⟩ := bind_eq_ok.mp h
  obtain rfl := pure_eq_ok.mp hsorted
  rw [← (keyed_spec hkeyed).1]
  exact (sorted_perm _ keyed).map Prod.snd

theorem section_spec {df : List Row} {dappName : String} {dapp : String × List Row}
    (h : (do return (dappName, ← sortRows (df.filter fun row => row.dappName = dappName))) =
      Except.ok dapp) :
    dapp.1 = dappName ∧ dapp.2.Perm (df.filter fun row => row.dappName = dapp.1) := by
  obtain ⟨dappDf, hsort, heq⟩ := bind_eq_ok.mp h
  obtain rfl := pure_eq_ok.mp heq
  exact ⟨rfl, sortRows_perm hsort⟩

theorem sections_spec {df : List Row} {dapps : List (String × List Row)}
    (h : sections df = .ok dapps) :
    dapps.map Prod.fst = unique (df.map Row.dappName) ∧
      ∀ dapp ∈ dapps, dapp.2.Perm (df.filter fun row => row.dappName = dapp.1) := by
  have hall := (forall₂_of_mapM h).imp fun _ _ => section_spec
  constructor
  · have hnames := hall.imp fun _ _ hdapp => hdapp.1.symm
    have := (List.forall₂_map_right_iff (f := Prod.fst)).mpr hnames
    rw [List.forall₂_eq_eq_eq] at this
    exact this.symm
  · intro dapp hdapp
    obtain ⟨_, _, hspec⟩ := exists_related_right hall hdapp
    exact hspec.2

theorem mem_sections {df : List Row} {dapps : List (String × List Row)}
    (h : sections df = .ok dapps) {row : Row} (hrow : row ∈ df) :
    ∃ dappDf, (row.dappName, dappDf) ∈ dapps ∧
      sortRows (df.filter fun r => r.dappName = row.dappName) = .ok dappDf := by
  have hname : row.dappName ∈ unique (df.map Row.dappName) :=
    mem_unique.mpr (List.mem_map.mpr ⟨row, hrow, rfl⟩)
  obtain ⟨x, hx, hround⟩ := exists_related (forall₂_of_mapM h) hname
  obtain ⟨dappDf, hsort, heq⟩ := bind_eq_ok.mp hround
  obtain rfl := pure_eq_ok.mp heq
  exact ⟨dappDf, hx, hsort⟩

/-- A report is made unless a name cannot be split. -/
theorem sections_returns {df : List Row}
    (h : ∀ row ∈ df, ∃ key, splitAction row.action = .ok key) :
    ∃ dapps, sections df = .ok dapps := by
  refine mapM_returns_iff.mpr fun dapp _ => ?_
  have hkeyed : ∃ keyed, ((df.filter fun row => row.dappName = dapp).mapM fun row => do
      return (← splitAction row.action, row)) = Except.ok keyed := by
    refine mapM_returns_iff.mpr fun row hrow => ?_
    obtain ⟨key, hkey⟩ := h row (List.mem_of_mem_filter hrow)
    exact ⟨(key, row), by rw [hkey]; rfl⟩
  obtain ⟨keyed, hkeyed⟩ := hkeyed
  refine ⟨(dapp, (sorted (fun x => toLex x.1) keyed).map Prod.snd), ?_⟩
  rw [sortRows, hkeyed]
  rfl

-- ---------------------------------------------------------------------------
-- The rows of a report
-- ---------------------------------------------------------------------------

/-- A report's rows for the actions of one name. -/
def rowsNamed (lower : String → String) (actions : List Action) (base : String)
    (table : List Row) : List Row :=
  (((names lower actions).zip table).filter fun x => x.1 = base).map Prod.snd

section

variable {chain : Chain} {lower : String → String} {app base : String} {actions : List Action}
  {table : List Row}

theorem rowsNamed_sublist (base : String) (hlen : table.length ≤ (names lower actions).length) :
    (rowsNamed lower actions base table).Sublist table := by
  refine (List.filter_sublist.map Prod.snd).trans ?_
  rw [List.map_snd_zip hlen]

/-- They are numbered in the order in which they were met. -/
theorem map_action_rowsNamed (hactions : table.map Row.action = labels (names lower actions))
    (hrepeated : 1 < (names lower actions).count base) :
    (rowsNamed lower actions base table).map Row.action =
      (List.range' 1 ((names lower actions).count base)).map (numbered base) := by
  obtain ⟨all, hall⟩ : ∃ all, names lower actions = all := ⟨_, rfl⟩
  rw [hall] at hactions hrepeated
  have hzip : (rowsNamed lower actions base table).map Row.action =
      ((all.zip (table.map Row.action)).filter fun x => x.1 = base).map Prod.snd := by
    rw [List.zip_map_right, List.filter_map, rowsNamed, hall, List.map_map, List.map_map]
    rfl
  have hpairs : all.zip (labels all) = (occurrences [] all).map fun o => (o.1, label all o) := by
    calc all.zip (labels all)
        = ((occurrences [] all).map Prod.fst).zip ((occurrences [] all).map (label all)) := by
          rw [map_fst_occurrences, labels]
      _ = (occurrences [] all).map fun o => (o.1, label all o) := List.zip_map'
  rw [hzip, hactions, hpairs, List.filter_map, List.map_map, hall]
  have hown : (occurrences [] all).filter ((fun x => decide (x.1 = base)) ∘ fun o =>
      (o.1, label all o)) = (List.range' 0 (all.count base)).map fun k => (base, k) :=
    filter_occurrences base [] all
  have hfrom : List.range' 1 (all.count base) = (List.range' 0 (all.count base)).map (1 + ·) := by
    rw [List.map_add_range']
  rw [hown, List.map_map, hfrom, List.map_map]
  refine List.map_congr_left fun k _ => ?_
  show label all (base, k) = numbered base (1 + k)
  rw [label, if_pos hrepeated, Nat.add_comm]

/-- A table is only made of the chain's answers. -/
theorem answers_of_actionRows {duplicates : List String} {added : Dict String Nat}
    (h : actionRows chain lower app duplicates added actions = .ok table) :
    ∀ a ∈ actions, chain.Answers a := by
  induction actions generalizing added table with
  | nil => exact fun a ha => by cases ha
  | cons a actions ih =>
    obtain ⟨name, _, h⟩ := bind_eq_ok.mp h
    obtain ⟨counts, hcounts, h⟩ := bind_eq_ok.mp h
    obtain ⟨tx, htx, h⟩ := bind_eq_ok.mp h
    obtain ⟨rows, hrows, _⟩ := bind_eq_ok.mp h
    intro b hb
    rcases List.mem_cons.mp hb with rfl | hb
    · exact ⟨⟨counts, hcounts⟩, tx, htx⟩
    · exact ih hrows b hb

/-- A prepared table holds each report's rows in one piece. -/
theorem tables_of_prepareReportData {directory : String} {files : List ReportFile} {rows : List Row}
    (h : prepareReportData chain lower directory files = .ok rows) :
    ∃ tables, rows = tables.flatten ∧ List.Forall₂ (fun r table =>
      List.Forall₂ (RowFor chain lower) (r.2.map fun a => (r.1, a)) table ∧
      table.map Row.key = (labels (names lower r.2)).map fun l => (strip (lower r.1), l))
      (collectReports files).items tables := by
  obtain ⟨tables, htables, h⟩ := bind_eq_ok.mp h
  refine ⟨tables, ?_, (forall₂_of_mapM htables).imp ?_⟩
  · dsimp only at h
    split at h
    · cases h
    · exact (pure_eq_ok.mp h).symm
  · intro r table hround
    obtain ⟨table', hround', hspec⟩ := appRows_spec (answers_of_actionRows hround)
    obtain rfl : table = table' := Except.ok.inj (hround.symm.trans hround')
    exact hspec

theorem map_action_of_keys
    (h : table.map Row.key = (labels (names lower actions)).map fun l => (strip (lower app), l)) :
    table.map Row.action = labels (names lower actions) := by
  have := congrArg (List.map Prod.snd) h
  rwa [List.map_map, List.map_map, show Prod.snd ∘ (fun l => (strip (lower app), l)) = id from rfl,
    List.map_id] at this

theorem dappName_of_keys
    (h : table.map Row.key = (labels (names lower actions)).map fun l => (strip (lower app), l))
    {row : Row} (hrow : row ∈ table) : row.dappName = strip (lower app) := by
  have hkey : row.key ∈ table.map Row.key := List.mem_map.mpr ⟨row, hrow, rfl⟩
  rw [h] at hkey
  obtain ⟨l, _, hl⟩ := List.mem_map.mp hkey
  exact (congrArg Prod.fst hl).symm

end

-- ---------------------------------------------------------------------------
-- The repetitions of a name
-- ---------------------------------------------------------------------------

/-- How a section lists the `m` rows `own` of the repetitions of `base`. -/
structure Listed (df dappDf : List Row) (dapp base : String) (m : Nat) (own : List Row) : Prop where
  /-- as they were met, so they are numbered -/
  numbered : own.map Row.action = (List.range' 1 m).map (numbered base)
  /-- the section is in three pieces: what is sorted before these numbers, what is sorted
  behind them, and between the two a group for each number, in rising order -/
  groups : ∃ before behind,
    dappDf = before ++ (List.range' 1 m).flatMap (rowsSplitAs df dapp base) ++ behind ∧
      (∀ row ∈ before, Before row (base, 1)) ∧ ∀ row ∈ behind, Behind row (base, m)
  /-- each is in the group of its number -/
  members : List.Forall₂ (fun k row => row ∈ rowsSplitAs df dapp base k) (List.range' 1 m) own
  /-- they are listed in the order of the numbers -/
  inOrder : own.Sublist ((List.range' 1 m).flatMap (rowsSplitAs df dapp base))
  /-- with no other row of these numbers, they are listed one after the other -/
  contiguous : (∀ k ∈ List.range' 1 m, (rowsSplitAs df dapp base k).length = 1) →
    (List.range' 1 m).flatMap (rowsSplitAs df dapp base) = own

theorem sublist_flatMap {ks : List Nat} {f : Nat → List Row} {own : List Row}
    (h : List.Forall₂ (fun k row => row ∈ f k) ks own) : own.Sublist (ks.flatMap f) := by
  induction h with
  | nil => exact List.Sublist.slnil
  | cons hrow _ ih =>
    rw [List.flatMap_cons]
    exact (List.singleton_sublist.mpr hrow).append ih

theorem length_flatMap_ones {ks : List Nat} {f : Nat → List Row}
    (h : ∀ k ∈ ks, (f k).length = 1) : (ks.flatMap f).length = ks.length := by
  rw [List.length_flatMap, List.map_congr_left h]
  simp

/-- The rows numbered by one report, in a section of a table they are in. -/
theorem listed_of_rows {df dappDf own : List Row} {dapp base : String} {m : Nat}
    (hsort : sortRows (df.filter fun row => row.dappName = dapp) = .ok dappDf)
    (hown : own.map Row.action = (List.range' 1 m).map (numbered base)) (hsub : own.Sublist df)
    (hdapp : ∀ row ∈ own, row.dappName = dapp)
    (hsplit : ∀ k, splitAction (numbered base k) = .ok (base, k)) :
    Listed df dappDf dapp base m own := by
  have hgroup (k : Nat) : ((df.filter fun row => row.dappName = dapp).filter fun row =>
      splitAction row.action = .ok (base, k)) = rowsSplitAs df dapp base k := by
    rw [List.filter_filter, rowsSplitAs]
    refine List.filter_congr fun row _ => ?_
    rw [Bool.and_comm, ← Bool.decide_and]
  have hmembers : List.Forall₂ (fun k row => row ∈ rowsSplitAs df dapp base k)
      (List.range' 1 m) own := by
    have hsame : List.Forall₂ (· = ·) (own.map Row.action)
        ((List.range' 1 m).map (numbered base)) := by
      rw [hown, List.forall₂_eq_eq_eq]
    have hactions : List.Forall₂ (fun row k => row.action = numbered base k) own
        (List.range' 1 m) := by
      simpa only [List.forall₂_map_left_iff, List.forall₂_map_right_iff] using hsame
    refine (((List.forall₂_and_left own _).mpr ⟨fun row hrow =>
      (⟨hsub.subset hrow, hdapp row hrow⟩ : row ∈ df ∧ row.dappName = dapp), hactions⟩).imp ?_).flip
    rintro row k ⟨⟨hdf, hname⟩, haction⟩
    refine List.mem_filter.mpr ⟨hdf, decide_eq_true ⟨hname, ?_⟩⟩
    rw [haction, hsplit]
  obtain ⟨before, behind, hcut, hbefore, hbehind⟩ := sortRows_groups hsort base m
  simp only [hgroup] at hcut
  refine ⟨hown, ⟨before, behind, hcut, hbefore, hbehind⟩, hmembers, sublist_flatMap hmembers,
    fun hones => ?_⟩
  refine ((sublist_flatMap hmembers).eq_of_length ?_).symm
  rw [length_flatMap_ones hones, hmembers.length_eq]

/-- A name that the pattern can take apart. -/
def OneLine (name : String) : Prop := name ≠ "" ∧ '\n' ∉ name.toList

theorem splitAction_of_rowFor {chain : Chain} {lower : String → String} {x : String × Action}
    {row : Row} (h : RowFor chain lower x row) (hname : OneLine (strip (lower x.2.name))) :
    ∃ key, splitAction row.action = .ok key := by
  rcases h.action with haction | ⟨k, haction⟩
  · rw [haction]
    exact splitAction_returns hname.1 hname.2
  · rw [haction]
    exact ⟨_, splitAction_numbered hname.1 (strip_strip _) hname.2 k⟩

/-- What the report made of a table says of the repeated names in the files. -/
def RepetitionsListed (chain : Chain) (lower : String → String) (files : List ReportFile)
    (rows : List Row) (dapps : List (String × List Row)) : Prop :=
  ∀ app actions, (app, actions) ∈ (collectReports files).items →
    ∃ earlier table later, rows = earlier ++ table ++ later ∧
      List.Forall₂ (RowFor chain lower) (actions.map fun a => (app, a)) table ∧
      ∀ base, OneLine base → 1 < (names lower actions).count base →
        ∃ dappDf, (strip (lower app), dappDf) ∈ dapps ∧
          Listed rows dappDf (strip (lower app)) base ((names lower actions).count base)
            (rowsNamed lower actions base table)

theorem repetitionsListed {chain : Chain} {lower : String → String} {directory : String}
    {files : List ReportFile} {rows : List Row} {dapps : List (String × List Row)}
    (hprepare : prepareReportData chain lower directory files = .ok rows)
    (hsections : sections rows = .ok dapps) : RepetitionsListed chain lower files rows dapps := by
  intro app actions happ
  obtain ⟨tables, hflatten, htables⟩ := tables_of_prepareReportData hprepare
  obtain ⟨table, htable, hall, hkeys⟩ := exists_related htables happ
  obtain ⟨before, behind, hcut⟩ := List.append_of_mem htable
  have hrows : rows = before.flatten ++ table ++ behind.flatten := by
    rw [hflatten, hcut, List.flatten_append, List.flatten_cons, List.append_assoc]
  refine ⟨before.flatten, table, behind.flatten, hrows, hall, fun base hline hrepeated => ?_⟩
  have hlen : table.length ≤ (names lower actions).length := by
    rw [← hall.length_eq, List.length_map, names, List.length_map]
  have hown := map_action_rowsNamed (map_action_of_keys hkeys) hrepeated
  have hsub := rowsNamed_sublist base hlen
  have hdf : table.Sublist rows := by
    rw [hrows]
    exact (List.sublist_append_right _ _).trans (List.sublist_append_left _ _)
  -- the name is one of the actions', which are stripped
  have hstrip : strip base = base := by
    obtain ⟨a, _, rfl⟩ := List.mem_map.mp (List.count_pos_iff.mp (Nat.zero_lt_of_lt hrepeated))
    exact strip_strip _
  obtain ⟨row, hrow⟩ : ∃ row, row ∈ rowsNamed lower actions base table := by
    refine List.exists_mem_of_ne_nil _ fun hnil => ?_
    rw [hnil] at hown
    have := congrArg List.length hown
    simp only [List.map_nil, List.length_nil, List.length_map, List.length_range'] at this
    omega
  have hdapp : ∀ row ∈ rowsNamed lower actions base table, row.dappName = strip (lower app) :=
    fun row hrow => dappName_of_keys hkeys (hsub.subset hrow)
  obtain ⟨dappDf, hmem, hsort⟩ := mem_sections hsections (hdf.subset (hsub.subset hrow))
  rw [hdapp row hrow] at hmem hsort
  exact ⟨dappDf, hmem, listed_of_rows hsort hown (hsub.trans hdf) hdapp
    fun k => splitAction_numbered hline.1 hstrip hline.2 k⟩

/-- The text of the report: for each dApp in the order of the table a header and the rows
`dappDf`, whose first column is the action. -/
structure Renders (percent : Row → String) (toMarkdown : List MarkdownRow → String)
    (title : String → String) (rows : List Row) (dapps : List (String × List Row))
    (text : String) : Prop where
  text_eq : text = String.join (dapps.map fun dapp =>
    "\n## Cost Report for \"" ++ title dapp.1 ++ "\" dApp\n\n" ++
      toMarkdown (dapp.2.map (markdownRow percent)) ++ "\n")
  /-- the column of the actions is the section's, in its order -/
  actions : ∀ dapp ∈ dapps,
    (dapp.2.map (markdownRow percent)).map MarkdownRow.action = dapp.2.map Row.action
  /-- one section for each dApp of the table -/
  names : dapps.map Prod.fst = unique (rows.map Row.dappName)
  /-- each with the rows of its dApp and no others -/
  rows : ∀ dapp ∈ dapps, dapp.2.Perm (rows.filter fun row => row.dappName = dapp.1)

/-- **Numbered actions are listed in the order of their numbers.** The pattern inverts the
numbering; the report on a prepared table is made where every name is on one line, and
wherever it is made it lists the repetitions of a name as they were met. -/
theorem reportDataToMarkdown_lists (percent : Row → String)
    (toMarkdown : List MarkdownRow → String) (title : String → String) (chain : Chain)
    (lower : String → String) (directory : String) (files : List ReportFile) :
    (∀ base, OneLine base → strip base = base →
      ∀ n, 1 ≤ n → splitAction (numbered base n) = .ok (base, n)) ∧
    ∀ rows, prepareReportData chain lower directory files = .ok rows →
      ((∀ x ∈ allActions (namedReports files), OneLine (strip (lower x.2.name))) →
        ∃ text, reportDataToMarkdown percent toMarkdown title rows = .ok text) ∧
      ∀ text, reportDataToMarkdown percent toMarkdown title rows = .ok text →
        ∃ dapps, Renders percent toMarkdown title rows dapps text ∧
          RepetitionsListed chain lower files rows dapps := by
  refine ⟨fun base hline hstrip n _ => splitAction_numbered hline.1 hstrip hline.2 n,
    fun rows hprepare => ⟨fun hlines => ?_, fun text htext => ?_⟩⟩
  · obtain ⟨tables, rfl, htables⟩ := tables_of_prepareReportData hprepare
    obtain ⟨dapps, hdapps⟩ : ∃ dapps, sections tables.flatten = .ok dapps := by
      refine sections_returns fun row hrow => ?_
      obtain ⟨x, hx, hfor⟩ := exists_related_right (flatten_tables htables).1 hrow
      refine splitAction_of_rowFor hfor (hlines x ?_)
      obtain ⟨r, hr, hxr⟩ := List.mem_flatMap.mp hx
      rw [collectReports_eq] at hr
      exact List.mem_flatMap.mpr ⟨r, Dict.mem_ofList hr, hxr⟩
    exact ⟨_, by rw [reportDataToMarkdown, hdapps, ok_bind]; rfl⟩
  · obtain ⟨dapps, hdapps, htext⟩ := bind_eq_ok.mp htext
    obtain ⟨hnames, hrows⟩ := sections_spec hdapps
    have hrenders : Renders percent toMarkdown title rows dapps text :=
      { text_eq := (pure_eq_ok.mp htext).symm
        actions := fun dapp _ => map_action_markdownRow percent dapp.2
        names := hnames
        rows := hrows }
    exact ⟨dapps, hrenders, repetitionsListed hprepare hdapps⟩

/-- A table of the actions alone. -/
def actionColumn (rows : List MarkdownRow) : String :=
  String.join (rows.map fun row => "| " ++ row.action ++ " |\n")

def tenSwaps : List String := List.replicate 10 "Swap"

/-- As text, "swap 10" would come before "swap 2". -/
def tenSwapsText : String :=
  "\n## Cost Report for \"Uniswap\" dApp\n\n| swap 1 |\n| swap 2 |\n| swap 3 |\n" ++
    "| swap 4 |\n| swap 5 |\n| swap 6 |\n| swap 7 |\n| swap 8 |\n| swap 9 |\n" ++
    "| swap 10 |\n\n"

theorem reportDataToMarkdown_lists_swaps :
    splitAction (numbered "swap" 10) = .ok ("swap", 10) ∧
    ∃ (rows dappDf table : List Row) (dapps : List (String × List Row)),
      prepareReportData sampleChain asciiLower "reports" [swapReport tenSwaps] = .ok rows ∧
      reportDataToMarkdown (fun _ => "17.09") actionColumn asciiTitle rows = .ok tenSwapsText ∧
      Renders (fun _ => "17.09") actionColumn asciiTitle rows dapps tenSwapsText ∧
      ("uniswap", dappDf) ∈ dapps ∧
      Listed rows dappDf "uniswap" "swap" 10
        (rowsNamed asciiLower (tenSwaps.map fun name => ⟨name, "0x01", 21000⟩) "swap" table) := by
  have hmain := reportDataToMarkdown_lists (fun _ => "17.09") actionColumn asciiTitle
    sampleChain asciiLower "reports" [swapReport tenSwaps]
  have hline : OneLine "swap" := ⟨by decide, by decide⟩
  obtain ⟨hsplit, hreport⟩ := hmain
  obtain ⟨rows, hrows, hspelled⟩ : ∃ rows,
      prepareReportData sampleChain asciiLower "reports" [swapReport tenSwaps] = .ok rows ∧
      reportDataToMarkdown (fun _ => "17.09") actionColumn asciiTitle rows = .ok tenSwapsText :=
    ⟨_, rfl, rfl⟩
  obtain ⟨hreturns, hlists⟩ := hreport rows hrows
  obtain ⟨text, htext⟩ := hreturns (by unfold OneLine; decide)
  obtain rfl : text = tenSwapsText := Except.ok.inj (htext.symm.trans hspelled)
  obtain ⟨dapps, hrenders, hlisted⟩ := hlists _ htext
  obtain ⟨_, table, _, _, _, hnames⟩ := hlisted "Uniswap" _ (by exact List.mem_singleton.mpr rfl)
  obtain ⟨dappDf, hmem, hown⟩ := hnames "swap" hline (by decide)
  exact ⟨hsplit "swap" hline (by decide) 10 (by decide), rows, dappDf, table, dapps, hrows,
    htext, hrenders, hmem, hown⟩

end NeonTests.CostReport
