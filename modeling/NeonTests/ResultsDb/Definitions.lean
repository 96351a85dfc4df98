import NeonTests.CostReport.Definitions
import NeonTests.Lib.Script
import Mathlib.Data.List.Sort

/-!
# Test results database — saving a cost report

`save_dapps_cost_report_to_db` of `clickfile.py` over the handler of
`deploy/test_results_db/db_handler.py`. The database keeps its own constraints
(keys, sequence, reference) in its type. Every handler method that writes commits
before it returns, so a command is a script that may fail between two commits;
`failing` names the step at which the database refuses.

What `\d` matches beyond ASCII is a parameter, `isDecimal`.
-/

namespace NeonTests.ResultsDb

open NeonTests.CostReport Python Scripts

-- ---------------------------------------------------------------------------
-- Tables
-- ---------------------------------------------------------------------------

inductive RepoType
  | proxy
  | evm
  | tests
  deriving DecidableEq, Repr

/-- A row of `cost_report`. -/
structure CostReport where
  id : Nat
  timestamp : Nat
  repo : RepoType
  neonEvmTag : String
  proxyTag : String
  evmCommitSha : Option String
  proxyCommitSha : String
  deriving DecidableEq, Repr

/-- A row of `dapp_data`. -/
structure DappData extends Row where
  costReportId : Nat
  deriving DecidableEq, Repr

/-- The committed tables. -/
@[ext] structure Db where
  reports : List CostReport
  data : List DappData
  /-- the sequence behind `cost_report.id` -/
  nextReportId : Nat
  reports_nodup : (reports.map CostReport.id).Nodup
  reports_lt : ∀ r ∈ reports, r.id < nextReportId
  /-- `ForeignKey('cost_report.id')` -/
  data_refers : ∀ d ∈ data, ∃ r ∈ reports, r.id = d.costReportId

/-- The filter of the handler's queries: `tag_column == tag` within a repo. -/
def CostReport.Selected (repo : RepoType) (tag : String) (r : CostReport) : Prop :=
  r.repo = repo ∧ (if repo = .evm then r.neonEvmTag else r.proxyTag) = tag

instance (repo : RepoType) (tag : String) : DecidablePred (CostReport.Selected repo tag) :=
  fun _ => inferInstanceAs (Decidable (_ ∧ _))

-- ---------------------------------------------------------------------------
-- Writes
-- ---------------------------------------------------------------------------

def Db.deleteData (db : Db) (ids : List Nat) : Db where
  reports := db.reports
  data := db.data.filter fun d => d.costReportId ∉ ids
  nextReportId := db.nextReportId
  reports_nodup := db.reports_nodup
  reports_lt := db.reports_lt
  data_refers d hd := db.data_refers d (List.mem_of_mem_filter hd)

theorem Db.deleteReports_nodup (db : Db) (ids : List Nat) :
    ((db.reports.filter fun r => r.id ∉ ids).map CostReport.id).Nodup :=
  db.reports_nodup.sublist (List.filter_sublist.map _)

theorem Db.deleteReports_lt (db : Db) (ids : List Nat) :
    ∀ r ∈ db.reports.filter fun r => r.id ∉ ids, r.id < db.nextReportId :=
  fun r hr => db.reports_lt r (List.mem_of_mem_filter hr)

/-- Refused while a data row refers to one of the reports. -/
def Db.deleteReports (db : Db) (ids : List Nat) : Except PyError Db :=
  if h : ∀ d ∈ db.data, d.costReportId ∉ ids then
    .ok {
      reports := db.reports.filter fun r => r.id ∉ ids
      data := db.data
      nextReportId := db.nextReportId
      reports_nodup := db.deleteReports_nodup ids
      reports_lt := db.deleteReports_lt ids
      data_refers d hd := by
        obtain ⟨r, hr, hid⟩ := db.data_refers d hd
        refine ⟨r, List.mem_filter.mpr ⟨hr, ?_⟩, hid⟩
        rw [hid, decide_eq_true_iff]
        exact h d hd }
  else .error .databaseError

/-- The new row gets the next id of the sequence, whatever it comes with. -/
def Db.insertReport (db : Db) (r : CostReport) : Db where
  reports := db.reports ++ [{ r with id := db.nextReportId }]
  data := db.data
  nextReportId := db.nextReportId + 1
  reports_nodup := by
    rw [List.map_append, List.map_singleton]
    refine List.nodup_append.mpr ⟨db.reports_nodup, List.nodup_singleton _, ?_⟩
    rintro a ha b hb rfl
    obtain ⟨r', hr', rfl⟩ := List.mem_map.mp ha
    exact Nat.lt_irrefl _ (List.mem_singleton.mp hb ▸ db.reports_lt r' hr')
  reports_lt r' hr' := by
    rcases List.mem_append.mp hr' with hr' | hr'
    · have := db.reports_lt r' hr'
      omega
    · rw [List.mem_singleton.mp hr']
      exact Nat.lt_succ_self _
  data_refers d hd := by
    obtain ⟨r', hr', hid⟩ := db.data_refers d hd
    exact ⟨r', List.mem_append_left _ hr', hid⟩

def Db.withData (db : Db) (costReportId : Nat) (rows : List Row)
    (h : ∃ r ∈ db.reports, r.id = costReportId) : Db where
  reports := db.reports
  data := db.data ++ rows.map fun row => { row with costReportId := costReportId }
  nextReportId := db.nextReportId
  reports_nodup := db.reports_nodup
  reports_lt := db.reports_lt
  data_refers d hd := by
    rcases List.mem_append.mp hd with hd | hd
    · exact db.data_refers d hd
    · obtain ⟨row, _, rfl⟩ := List.mem_map.mp hd
      exact h

/-- Refused for a report that is not there. -/
def Db.insertData (db : Db) (costReportId : Nat) (rows : List Row) : Except PyError Db :=
  if h : ∃ r ∈ db.reports, r.id = costReportId then .ok (db.withData costReportId rows h)
  else .error .databaseError

-- ---------------------------------------------------------------------------
-- The handler
-- ---------------------------------------------------------------------------

/-- The writing methods of the handler, one commit each. -/
inductive DbStep
  | deleteData
  | deleteReports
  | insertReport
  | insertData
  deriving DecidableEq, Repr

structure World where
  db : Db
  /-- `datetime.utcnow()` -/
  now : Nat
  failing : Option DbStep

abbrev Command (α : Type) := Script PyError World α

/-- A write and its commit: both happen, or the method raises. -/
def commit (st : DbStep) (write : Db → Except PyError Db) : Command Unit :=
  step fun w =>
    if w.failing = some st then (.error .databaseError, w)
    else match write w.db with
      | .error e => (.error e, w)
      | .ok db => (.ok (), { w with db := db })

def getCostReportIds (repo : RepoType) (tag : String) : Command (List Nat) :=
  read fun w => (w.db.reports.filter (CostReport.Selected repo tag)).map CostReport.id

def deleteDataByReportIds (reportIds : List Nat) : Command Unit :=
  commit .deleteData fun db => .ok (db.deleteData reportIds)

def deleteReports (reportIds : List Nat) : Command Unit :=
  commit .deleteReports fun db => db.deleteReports reportIds

/-- `evm_commit_sha or None` -/
def orNone (s : String) : Option String := if s = "" then none else some s

def saveCostReport (repo : RepoType) (neonEvmTag proxyTag evmCommitSha proxyCommitSha : String) :
    Command Nat := do
  let id ← read fun w => w.db.nextReportId
  let now ← read fun w => w.now
  commit .insertReport fun db => .ok (db.insertReport {
    id := id
    timestamp := now
    repo := repo
    neonEvmTag := neonEvmTag
    proxyTag := proxyTag
    evmCommitSha := orNone evmCommitSha
    proxyCommitSha := proxyCommitSha })
  return id

/-- The order in which `groupby("dapp_name")` visits the rows. -/
def byDappName (rows : List Row) : List Row :=
  rows.insertionSort fun a b => a.dappName ≤ b.dappName

/-- `gas_estimated` is not nullable: the insert of an unknown one is refused. -/
def saveCostReportData (reportData : List Row) (costReportId : Nat) : Command Unit :=
  commit .insertData fun db =>
    if ∀ row ∈ reportData, row.gasEstimated.isSome then
      db.insertData costReportId (byDappName reportData)
    else .error .databaseError

-- ---------------------------------------------------------------------------
-- save_dapps_cost_report_to_db
-- ---------------------------------------------------------------------------

section

variable (isDecimal : Char → Bool)

/-- What may be left after `\d{1,2}`. -/
def afterDigits : List Char → List (List Char)
  | [] => []
  | [a] => if isDecimal a then [[]] else []
  | a :: b :: rest =>
    if isDecimal a then if isDecimal b then [rest, b :: rest] else [b :: rest] else []

/-- `re.fullmatch(VERSION_BRANCH_TEMPLATE, tag)`, the template being
`[vt]{1}\d{1,2}\.\d{1,2}\.x.*` -/
def isVersionBranch (tag : String) : Bool :=
  match tag.toList with
  | [] => false
  | c :: rest =>
    (c == 'v' || c == 't') && (afterDigits isDecimal rest).any fun
      | '.' :: minor => (afterDigits isDecimal minor).any fun
        | '.' :: 'x' :: suffix => suffix.all (· != '\n')
        | _ => false
      | _ => false

/-- The command's options. -/
structure SaveCommand where
  repo : RepoType
  evmTag : String
  proxyTag : String
  evmCommitSha : String
  proxyCommitSha : String
  deriving DecidableEq, Repr

def SaveCommand.tag (cmd : SaveCommand) : String :=
  if cmd.repo = .evm then cmd.evmTag else cmd.proxyTag

def SaveCommand.doDelete (cmd : SaveCommand) : Bool :=
  if cmd.evmTag = cmd.proxyTag ∧ cmd.proxyTag = "latest" then false  -- a merge to develop
  else if isVersionBranch isDecimal cmd.evmTag ∧ isVersionBranch isDecimal cmd.proxyTag ∧
    cmd.evmTag = cmd.proxyTag then false  -- a merge to a version branch
  else true

/-- "delete them if needed" -/
def deleteOld (cmd : SaveCommand) : Command Unit :=
  if cmd.doDelete isDecimal then do
    let reportIdsOld ← getCostReportIds cmd.repo cmd.tag
    if reportIdsOld ≠ [] then do
      deleteDataByReportIds reportIdsOld
      deleteReports reportIdsOld
    else pure ()
  else pure ()

/-- `reportData` is what `prepare_report_data` returned or raised. -/
def saveDappsCostReportToDb (reportData : Except PyError (List Row)) (cmd : SaveCommand) :
    Command Unit := do
  let rows ← liftM reportData
  deleteOld isDecimal cmd
  let reportIdNew ← saveCostReport cmd.repo cmd.evmTag cmd.proxyTag cmd.evmCommitSha
    cmd.proxyCommitSha
  saveCostReportData rows reportIdNew

end

end NeonTests.ResultsDb
