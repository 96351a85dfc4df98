import NeonTests.Lib.Occurrences
import NeonTests.Lib.Python

/-!
# Cost reports — reading them into a table

`prepare_report_data` of `deploy/cli/cost_report.py`. The report files are taken
as `json.load` returns them, in the order `glob` finds them; the chain's answers
about a transaction and `str.lower` are parameters.
-/

namespace NeonTests.CostReport

open Fallible Occurrences Python

-- ---------------------------------------------------------------------------
-- Report files
-- ---------------------------------------------------------------------------

/-- One entry of a report's `actions`. -/
structure Action where
  name : String
  tx : String
  usedGas : Int
  deriving DecidableEq, Repr

structure Report where
  name : String
  /-- `none` when the object has no such key -/
  actions : Option (List Action)
  deriving DecidableEq, Repr

/-- A `*-report.json` file. -/
inductive ReportFile
  | object (r : Report)
  | list (rs : List Report)
  deriving DecidableEq, Repr

def ReportFile.reports : ReportFile → List Report
  | .object r => [r]
  | .list rs => rs

/-- `if "actions" in r: reports[r["name"]] = r["actions"]` -/
def addReport (reports : Dict String (List Action)) (r : Report) : Dict String (List Action) :=
  match r.actions with
  | some actions => reports.set r.name actions
  | none => reports

def collectReports (files : List ReportFile) : Dict String (List Action) :=
  files.foldl (fun reports file => file.reports.foldl addReport reports) .empty

-- ---------------------------------------------------------------------------
-- The table
-- ---------------------------------------------------------------------------

/-- What is read of a transaction. -/
structure Tx where
  gas : Nat
  deriving DecidableEq, Repr

/-- The two requests made for an action's transaction. -/
structure Chain where
  /-- accounts, transactions, compute units -/
  getSolanaAccountsTransactionsComputeUnits : String → Except PyError (Nat × Nat × Nat)
  getTransactionByHash : String → Except PyError (Option Tx)

/-- A row of the data frame. -/
structure Row where
  dappName : String
  action : String
  accCount : Nat
  trxCount : Nat
  gasEstimated : Option Nat
  gasUsed : Int
  computeUnits : Nat
  deriving DecidableEq, Repr

/-- `int(tx.gas) if tx and tx.gas else None` -/
def estimatedGas : Option Tx → Option Nat
  | some tx => if tx.gas = 0 then none else some tx.gas
  | none => none

/-- `[action for action, count in counts.items() if count > 1]` -/
def duplicateActions (counts : Dict String Nat) : List String :=
  (counts.items.filter fun x => 1 < x.2).map Prod.fst

/-- The action's name in the table, and the counters for the next one. -/
def uniqueActionName (duplicates : List String) (addedNumbers : Dict String Nat)
    (baseActionName : String) : Except PyError (String × Dict String Nat) :=
  if baseActionName ∈ duplicates then do
    let addedNumber ← getItem addedNumbers baseActionName
    return (numbered baseActionName addedNumber, addedNumbers.set baseActionName (addedNumber + 1))
  else return (baseActionName, addedNumbers)

section

variable (chain : Chain) (lower : String → String)

/-- The loop over a dApp's actions. -/
def actionRows (app : String) (duplicates : List String) :
    Dict String Nat → List Action → Except PyError (List Row)
  | _, [] => return []
  | addedNumbers, action :: rest => do
    let (name, addedNumbers) ← uniqueActionName duplicates addedNumbers (strip (lower action.name))
    let (accounts, trx, computeUnits) ← chain.getSolanaAccountsTransactionsComputeUnits action.tx
    let tx ← chain.getTransactionByHash action.tx
    let rows ← actionRows app duplicates addedNumbers rest
    return {
      dappName := strip (lower app)
      action := name
      accCount := accounts
      trxCount := trx
      gasEstimated := estimatedGas tx
      gasUsed := action.usedGas
      computeUnits := computeUnits } :: rows

def appRows (app : String) (actions : List Action) : Except PyError (List Row) :=
  let counts := Dict.counter (actions.map fun action => strip (lower action.name))
  let duplicates := duplicateActions counts
  let addedNumbers := Dict.ofList (duplicates.map fun action => (action, 1))
  actionRows chain lower app duplicates addedNumbers actions

def prepareReportData (directory : String) (files : List ReportFile) :
    Except PyError (List Row) := do
  let tables ← (collectReports files).items.mapM fun x => appRows chain lower x.1 x.2
  let data := tables.flatten
  if data.isEmpty then throw (.exception s!"no reports found in {directory}")
  else return data

end

end NeonTests.CostReport
