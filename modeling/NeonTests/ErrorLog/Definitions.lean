import NeonTests.Lib.Json
import NeonTests.Lib.Runs

/-!
# Error log — the shared file

`utils/error_log.py`. The log is one JSON file that every process of a test run
reads, changes and writes back under a file lock.

* `ErrorLogModel` — the document, `dump` and `load` its two directions;
* `System` — the file and the process inside the lock. `step` is one operation
  of a process on the lock or the file; any other process may come in between,
  but not get hold of the lock.

The directory of the file is there, so `__create` never meets
`FileNotFoundError`.
-/

namespace NeonTests.ErrorLog

open Python Fallible Runs

-- ---------------------------------------------------------------------------
-- The document
-- ---------------------------------------------------------------------------

inductive TestGroup
  | economy
  | basic
  | tracer
  | services
  | oz
  | ui
  | evm
  | compilerCompatibility
  deriving DecidableEq, Repr

def TestGroup.name : TestGroup → String
  | economy => "economy"
  | basic => "basic"
  | tracer => "tracer"
  | services => "services"
  | oz => "oz"
  | ui => "ui"
  | evm => "evm"
  | compilerCompatibility => "compiler_compatibility"

def TestGroup.all : List TestGroup :=
  [economy, basic, tracer, services, oz, ui, evm, compilerCompatibility]

def TestGroup.ofName? (s : String) : Option TestGroup := all.find? fun g => g.name == s

theorem TestGroup.ofName?_name (g : TestGroup) : ofName? g.name = some g := by
  cases g <;> decide

/-- Two `defaultdict(list)`s and a list. -/
structure ErrorLogModel where
  failures : Dict TestGroup (List String)
  errors : Dict TestGroup (List String)
  comments : List String

/-- `ErrorLogModel()` -/
def ErrorLogModel.default : ErrorLogModel := ⟨.empty, .empty, []⟩

def ErrorLogModel.members (log : ErrorLogModel) : List (String × Json) := [
  ("failures", Json.ofDict TestGroup.name Json.ofStrings log.failures),
  ("errors", Json.ofDict TestGroup.name Json.ofStrings log.errors),
  ("comments", Json.ofStrings log.comments)]

/-- `model_dump_json` -/
def dump (log : ErrorLogModel) : Json := .object log.members

def loadGroups : Json → Except PyError (Dict TestGroup (List String)) :=
  Json.asDict TestGroup.ofName? Json.asStrings

/-- A field that is not there keeps its default. -/
def loadField {α : Type} (data : Dict String Json) (field : String)
    (read : Json → Except PyError α) (dflt : α) : Except PyError α :=
  match data.get? field with
  | some v => read v
  | none => .ok dflt

/-- `ErrorLogModel(**data)` -/
def load : Json → Except PyError ErrorLogModel
  | .object members => do
    let data := Dict.ofList members
    let failures ← loadField data "failures" loadGroups .empty
    let errors ← loadField data "errors" loadGroups .empty
    let comments ← loadField data "comments" Json.asStrings []
    return ⟨failures, errors, comments⟩
  | _ => .error .typeError

-- ---------------------------------------------------------------------------
-- The operations
-- ---------------------------------------------------------------------------

/-- The bodies run inside `_update`. -/
inductive Update
  | addFailure (testGroup : TestGroup) (testName : String)
  | addError (testGroup : TestGroup) (testName : String)
  | addFailures (testGroup : TestGroup) (testNames : List String)
  | addComment (text : String)
  /-- any body that raises; what it did to the log object is lost with it -/
  | raising (e : PyError)
  deriving DecidableEq, Repr

def Update.body (log : ErrorLogModel) : Update → Except PyError ErrorLogModel
  | addFailure g name => .ok { log with failures := log.failures.extend g [name] }
  | addError g name => .ok { log with errors := log.errors.extend g [name] }
  | addFailures g names => .ok { log with failures := log.failures.extend g names }
  | addComment text => .ok { log with comments := log.comments ++ [text] }
  | raising e => .error e

/-- What takes the lock: `ErrorLog()`, `clear` and the updates. -/
inductive Call
  | construct
  | clear
  | update (u : Update)
  deriving DecidableEq, Repr

-- ---------------------------------------------------------------------------
-- The system
-- ---------------------------------------------------------------------------

/-- `write_text` truncates the file before it writes. -/
inductive File
  | absent
  | truncated
  | document (j : Json)

/-- `ErrorLog.read` -/
def File.read : File → Except PyError ErrorLogModel
  | absent => .error .fileNotFoundError
  | truncated => .error .jsonDecodeError
  | document j => load j

/-- How far the process inside the lock has come. -/
inductive Stage
  | entered
  /-- an update has read the log -/
  | loaded (log : ErrorLogModel)
  /-- the file is truncated, the document not yet written -/
  | opened (j : Json)
  /-- only the lock is left to be released -/
  | leaving (outcome : Except PyError Unit)

variable (Proc : Type)

structure System where
  file : File
  /-- the processes that have an `ErrorLog` object -/
  constructed : List Proc
  /-- who is inside the lock, in which call and where -/
  holder : Option (Proc × Call × Stage)

inductive Event
  /-- a process gets the lock for a call -/
  | acquire (p : Proc) (call : Call)
  /-- the holder goes one operation further -/
  | advance (p : Proc)
  deriving DecidableEq, Repr

variable {Proc}

/-- The operation the holder does next: the file after it, and the next stage. -/
def advance (file : File) : Call → Stage → File × Stage
  | .construct, .entered =>
    match file with
    | .absent => (.truncated, .opened (dump .default))
    | file => (file, .leaving (.ok ()))
  | .clear, .entered => (.truncated, .opened (dump .default))
  | .update _, .entered =>
    match file.read with
    | .ok log => (file, .loaded log)
    | .error e => (file, .leaving (.error e))
  | .update u, .loaded log =>
    match u.body log with
    | .ok log => (.truncated, .opened (dump log))
    | .error e => (file, .leaving (.error e))
  | _, .opened j => (.document j, .leaving (.ok ()))
  | _, stage => (file, stage)

variable [DecidableEq Proc]

/-- A method needs an object; nobody gets a lock that is held; only the holder is
inside it. -/
def step (s : System Proc) : Event Proc → Option (System Proc)
  | .acquire p call =>
    if s.holder.isNone ∧ (call = .construct ∨ p ∈ s.constructed) then
      some { s with holder := some (p, call, .entered) }
    else none
  | .advance p =>
    match s.holder with
    | none => none
    | some (q, call, stage) =>
      if q ≠ p then none
      else match stage with
        | .leaving _ => some {
            file := s.file
            constructed := if call = .construct then p :: s.constructed else s.constructed
            holder := none }
        | stage =>
          let (file, stage) := advance s.file call stage
          some { s with file := file, holder := some (p, call, stage) }

/-- The calls in the order in which they got the lock. -/
def lockOrder (events : List (Event Proc)) : List (Proc × Call) :=
  events.filterMap fun
    | .acquire p call => some (p, call)
    | .advance _ => none

end NeonTests.ErrorLog
