import NeonTests.Lib.Ranking
import NeonTests.ResultsDb.Definitions
import Mathlib.Data.List.Dedup
import Mathlib.Data.Prod.Lex
import Mathlib.Data.String.Basic

/-!
# Test results database — comparing a cost report

`compare_dapp_results` of `clickfile.py`, the reading methods of the handler, and the pages
that `generate_and_save_plots_pdf` of `deploy/test_results_db/test_results_handler.py` draws.

A query without `ORDER BY` returns its rows as they stand in the table, where they are in no
particular order. `packaging.version` and what `\d` matches beyond ASCII are parameters.
-/

namespace NeonTests.ResultsDb

open NeonTests.CostReport Python Ranking

structure Packages where
  isDecimal : Char → Bool
  Version : Type
  [order : LinearOrder Version]
  /-- `version.parse` -/
  parse : String → Except PyError Version

attribute [instance] Packages.order

-- ---------------------------------------------------------------------------
-- GITHUB_TAG_PATTERN
-- ---------------------------------------------------------------------------

/-- `[vt]\d{1,2}\.\d{1,2}\.\d{1,2}`, and what may be left behind it. -/
def matchesTag (isDecimal : Char → Bool) (left : List Char → Bool) (tag : String) : Bool :=
  match tag.toList with
  | [] => false
  | c :: rest =>
    (c == 'v' || c == 't') && (afterDigits isDecimal rest).any fun
      | '.' :: minor => (afterDigits isDecimal minor).any fun
        | '.' :: patch => (afterDigits isDecimal patch).any left
        | _ => false
      | _ => false

/-- `re.fullmatch(GITHUB_TAG_PATTERN, tag)` -/
def fullmatchesTag (isDecimal : Char → Bool) : String → Bool := matchesTag isDecimal (· == [])

/-- `GITHUB_TAG_PATTERN.match(tag)`; the `$` at its end also stands before a last newline. -/
def startsWithTag (isDecimal : Char → Bool) : String → Bool :=
  matchesTag isDecimal fun left => left == [] || left == ['\n']

/-- `remove_heading_chars_till_first_digit` -/
def removeHeadingCharsTillFirstDigit (isDecimal : Char → Bool) (inputString : String) : String :=
  String.ofList (inputString.toList.dropWhile fun c => !isDecimal c)

-- ---------------------------------------------------------------------------
-- get_previous_tags
-- ---------------------------------------------------------------------------

/-- `tag_column` -/
def tagColumn (repo : RepoType) (r : CostReport) : String :=
  if repo = .evm then r.neonEvmTag else r.proxyTag

/-- `version.parse(remove_heading_chars_till_first_digit(t))` -/
def Packages.tagVersion (p : Packages) (t : String) : Except PyError p.Version :=
  p.parse (removeHeadingCharsTillFirstDigit p.isDecimal t)

/-- `sorted(tags, key=tagVersion, reverse=True)`: the keys are computed first. -/
def Packages.sortedTags (p : Packages) (tags : List String) : Except PyError (List String) := do
  let keys ← tags.mapM p.tagVersion
  return (ranked Prod.fst (keys.zip tags)).map Prod.snd

/-- The loop over the sorted tags: what it returns is still to be cut at the limit. -/
def Packages.fromFirstLower (p : Packages) (latestTag : p.Version) :
    List String → Except PyError (List String)
  | [] => .ok []
  | tag :: sortedTags => do
    let v ← p.tagVersion tag
    if v < latestTag then .ok (tag :: sortedTags) else p.fromFirstLower latestTag sortedTags

/-- `query(distinct(tag_column)).filter(CostReport.repo == repo)` -/
def Db.storedTags (db : Db) (repo : RepoType) : List String :=
  ((db.reports.filter fun r => r.repo = repo).map (tagColumn repo)).dedup

/-- `get_previous_tags` -/
def getPreviousTags (p : Packages) (db : Db) (repo : RepoType) (tag : String) (limit : Nat) :
    Except PyError (List String) :=
  if fullmatchesTag p.isDecimal tag then do
    let tags := (db.storedTags repo).filter fun t => startsWithTag p.isDecimal t
    let sortedTags ← p.sortedTags tags
    let latestTag ← p.tagVersion tag
    let previousTags ← p.fromFirstLower latestTag sortedTags
    return previousTags.take limit
  else .error .assertionError

-- ---------------------------------------------------------------------------
-- get_historical_data
-- ---------------------------------------------------------------------------

/-- A row of the data frame. -/
structure HistoryRow extends Row where
  repo : RepoType
  timestamp : Nat
  neonEvmTag : String
  proxyTag : String
  tag : String
  evmCommitSha : Option String
  proxyCommitSha : String
  deriving DecidableEq, Repr

def historyRow (repo : RepoType) (r : CostReport) (d : DappData) : HistoryRow where
  toRow := d.toRow
  repo := r.repo
  timestamp := r.timestamp
  neonEvmTag := r.neonEvmTag
  proxyTag := r.proxyTag
  tag := tagColumn repo r
  evmCommitSha := r.evmCommitSha
  proxyCommitSha := r.proxyCommitSha

/-- `order_by(desc(CostReport.timestamp))` -/
def byNewest : List CostReport → List CostReport := ranked CostReport.timestamp

/-- The key of `sort_values(by=["timestamp", "dapp_name", "action"])`. -/
def HistoryRow.sortKey (row : HistoryRow) : Nat ×ₗ String ×ₗ String :=
  toLex (row.timestamp, toLex (row.dappName, row.action))

def sortValues (rows : List HistoryRow) : List HistoryRow :=
  rows.insertionSort fun a b => a.sortKey ≤ b.sortKey

/-- The data rows of a report. -/
def Db.rowsOf (db : Db) (r : CostReport) : List DappData :=
  db.data.filter fun d => d.costReportId = r.id

/-- The rows of the reports, the filters of the last query applied. -/
def historyOf (db : Db) (repo : RepoType) (lastReport : CostReport)
    (previousReports : List CostReport) : List HistoryRow :=
  let costReportEntries := lastReport :: previousReports
  let costReportIds := previousReports.map CostReport.id ++ [lastReport.id]
  let dappNames := ((db.rowsOf lastReport).map fun d => d.dappName).dedup
  let actions := ((db.rowsOf lastReport).map fun d => d.action).dedup
  let dappDataEntries := db.data.filter fun d =>
    d.costReportId ∈ costReportIds ∧ d.dappName ∈ dappNames ∧ d.action ∈ actions
  let costReportDict := Dict.ofList (costReportEntries.map fun r => (r.id, r))
  dappDataEntries.filterMap fun d =>
    (costReportDict.get? d.costReportId).map fun r => historyRow repo r d

/-- `get_historical_data`. The database refuses a negative limit. -/
def getHistoricalData (db : Db) (depth : Nat) (repo : RepoType) (latestTag : String)
    (previousTags : List String) : Except PyError (List HistoryRow) :=
  let previousReports := byNewest (db.reports.filter fun r =>
    r.repo = repo ∧ tagColumn repo r ∈ previousTags)
  -- a merge event: the last report is itself among the previous ones
  let offset := if latestTag ∈ previousTags then 1 else 0
  if depth = 0 then .error .databaseError
  else
    match byNewest (db.reports.filter (CostReport.Selected repo latestTag)) with
    | [] => .error .attributeError
    | lastReport :: _ =>
      .ok (sortValues (historyOf db repo lastReport
        ((previousReports.drop offset).take (depth - 1))))

-- ---------------------------------------------------------------------------
-- compare_dapp_results
-- ---------------------------------------------------------------------------

/-- What `compare_dapp_results` hands over to be plotted; the two SHAs are those its title
is made of. -/
structure Comparison where
  historicalData : List HistoryRow
  comparedServiceCommitSha : Option String
  otherServiceCommitSha : Option String
  titleEnd : String
  deriving DecidableEq

def RepoType.name : RepoType → String
  | .proxy => "proxy"
  | .evm => "evm"
  | .tests => "tests"

/-- `f", commit sha {sha}" if sha else ""` -/
def shaString : Option String → String
  | none => ""
  | some sha => if sha = "" then "" else ", commit sha " ++ sha

def titleEnd (repo : RepoType) (comparedServiceTag otherServiceTag : String)
    (comparedServiceCommitSha otherServiceCommitSha : Option String) : String :=
  "on " ++ repo.name ++ ":" ++ comparedServiceTag ++ shaString comparedServiceCommitSha ++
    "\nwith " ++ (if repo = .proxy then "neon_evm" else "proxy") ++ ":" ++ otherServiceTag ++
    shaString otherServiceCommitSha

/-- The command's options. -/
structure CompareCommand where
  repo : RepoType
  evmTag : String
  proxyTag : String
  versionBranch : String
  historyDepthLimit : Nat
  deriving DecidableEq, Repr

def CompareCommand.comparedServiceTag (cmd : CompareCommand) : String :=
  if cmd.repo = .evm then cmd.evmTag else cmd.proxyTag

def CompareCommand.otherServiceTag (cmd : CompareCommand) : String :=
  if cmd.repo = .proxy then cmd.evmTag else cmd.proxyTag

/-- "define the tags against which the comparison will be done" -/
def CompareCommand.previousTags (cmd : CompareCommand) (p : Packages) (db : Db) :
    Except PyError (List String) :=
  if fullmatchesTag p.isDecimal cmd.comparedServiceTag then
    getPreviousTags p db cmd.repo cmd.comparedServiceTag cmd.historyDepthLimit
  else .ok [if cmd.versionBranch = "" then "latest" else cmd.versionBranch]

/-- The filter of `data_sample_row`. -/
def CompareCommand.Samples (cmd : CompareCommand) (row : HistoryRow) : Prop :=
  row.repo = cmd.repo ∧ row.neonEvmTag = cmd.evmTag ∧ row.proxyTag = cmd.proxyTag

instance (cmd : CompareCommand) : DecidablePred cmd.Samples :=
  fun _ => inferInstanceAs (Decidable (_ ∧ _))

/-- `historical_data[...].iloc[0]`; a frame without rows has no columns either. -/
def CompareCommand.dataSampleRow (cmd : CompareCommand) (historicalData : List HistoryRow) :
    Except PyError HistoryRow :=
  if historicalData = [] then .error (.keyError "repo")
  else match historicalData.filter cmd.Samples with
    | [] => .error .indexError
    | row :: _ => .ok row

/-- The commits of the compared and of the other service. -/
def CompareCommand.commitShas (cmd : CompareCommand) (evmCommitSha : Option String)
    (proxyCommitSha : String) : Except PyError (Option String × Option String) :=
  match cmd.repo with
  | .evm => .ok (evmCommitSha, some proxyCommitSha)
  | .proxy => .ok (some proxyCommitSha, evmCommitSha)
  | .tests => .error .valueError

/-- `compare_dapp_results`, up to the plotting. -/
def compareDappResults (p : Packages) (db : Db) (cmd : CompareCommand) :
    Except PyError Comparison := do
  let previousTags ← cmd.previousTags p db
  let historicalData ← getHistoricalData db cmd.historyDepthLimit cmd.repo
    cmd.comparedServiceTag previousTags
  let row ← cmd.dataSampleRow historicalData
  let shas ← cmd.commitShas row.evmCommitSha row.proxyCommitSha
  return {
    historicalData := historicalData
    comparedServiceCommitSha := shas.1
    otherServiceCommitSha := shas.2
    titleEnd := titleEnd cmd.repo cmd.comparedServiceTag cmd.otherServiceTag shas.1 shas.2 }

-- ---------------------------------------------------------------------------
-- generate_and_save_plots_pdf
-- ---------------------------------------------------------------------------

/-- `series.unique()`: the first of equal ones stays. -/
def unique (xs : List String) : List String := xs.reverse.dedup.reverse

/-- `gas_used / gas_estimated * 100`, rounded half up to hundredths. The columns are 32-bit
integers, so nothing but a division by zero is out of the reach of `Decimal`. -/
def gasUsedPercent (row : HistoryRow) : Except PyError Int :=
  match row.gasEstimated with
  | none => .error .typeError
  | some 0 => .error .arithmeticError
  | some (n + 1) =>
    .ok (row.gasUsed.sign * ((2 * 10000 * row.gasUsed.natAbs + (n + 1)) / (2 * (n + 1)) : Nat))

/-- A page of the PDF. -/
structure Page where
  dappName : String
  suptitle : String
  deriving DecidableEq, Repr

/-- `generate_and_save_plots_pdf`: the pages in the order in which they are saved. -/
def generateAndSavePlotsPdf (historicalData : List HistoryRow) (titleEnd : String) :
    Except PyError (List Page) :=
  match (historicalData.map fun row => row.timestamp).max? with
  | none => .error (.keyError "timestamp")
  | some latestTimestamp => do
    let _ ← historicalData.mapM gasUsedPercent
    let latestReportData := historicalData.filter fun row => row.timestamp = latestTimestamp
    let dappNames := unique (latestReportData.map fun row => row.dappName)
    return dappNames.map fun dappName => {
      dappName := dappName
      suptitle := "Cost report for \"" ++ dappName ++ "\" dApp\n" ++ titleEnd }

end NeonTests.ResultsDb
