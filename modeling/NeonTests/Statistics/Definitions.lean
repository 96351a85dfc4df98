import NeonTests.Lib.Python
import NeonTests.Lib.Runs

/-!
# Locust statistics — wrapped calls and the event handler

`LocustEventHandler` and `statistics_collector` of
`loadtesting/proxy/common/events.py`. A wrapped call puts an entry into the handler's
buffer, and when its function is done takes it out again and fires a request event.

Greenlets switch where they wait: in the wrapped functions, in the listeners of an
event, in the logger. So a call takes four steps: up to the function, the end of the
function, from the update of the entry to the event, and the rest. The listeners are not
modelled; `EventHook.fire` does not let their exceptions out.
-/

namespace NeonTests.Statistics

open Python

-- ---------------------------------------------------------------------------
-- The handler
-- ---------------------------------------------------------------------------

variable {Id R E A T : Type}

/-- What the code takes from the interpreter and from the values it is given: `R` are the
responses, `E` the exceptions, `A` the arguments of a call, `T` readings of the clocks. -/
structure Runtime (R E A T : Type) where
  /-- `isinstance(err, Exception)`; the others are only a `BaseException` -/
  isException : E → Bool
  /-- `str.title` -/
  title : String → String
  /-- `sys.getsizeof` -/
  getsizeof : R → Except E Nat
  /-- the exception that formatting the error line raises -/
  formatting : E → A → Option E
  keyError : E
  /-- `(stop - start) * 1000` -/
  elapsed : (start stop : T) → T

/-- An item of the buffer; the last four keys are set by an update. -/
structure Entry (R E T : Type) where
  name : String
  startTime : T
  requestType : String
  startPerfCounter : T
  response : Option R
  responseLength : Option Nat
  eventType : Option String
  exception : Option E

/-- What the request event carries. -/
structure RequestMeta (R E T : Type) where
  name : String
  requestType : String
  response : Option R
  responseTime : T
  responseLength : Nat
  exception : Option E

variable [DecidableEq Id]

/-- `init_event(task_id, request_type)`, with the readings of the two clocks. -/
def initEvent (buffer : Dict Id (Entry R E T)) (taskId : Id) (requestType : String)
    (startTime startPerfCounter : T) : Dict Id (Entry R E T) :=
  buffer.set taskId {
    name := ""
    startTime := startTime
    requestType := requestType
    startPerfCounter := startPerfCounter
    response := none
    responseLength := none
    eventType := none
    exception := none }

/-- What `fire_event` leaves: the buffer, the event, and whether its last line, which logs
the type of the event, raises. -/
structure Fired (Id R E T : Type) where
  buffer : Dict Id (Entry R E T)
  requestMeta : RequestMeta R E T
  logged : Except E Unit

/-- `fire_event(task_id)` -/
def fireEvent (rt : Runtime R E A T) (buffer : Dict Id (Entry R E T)) (taskId : Id) (now : T) :
    Except E (Fired Id R E T) :=
  match buffer.get? taskId with
  | none => .error rt.keyError
  | some event => .ok {
      buffer := buffer.erase taskId
      requestMeta := {
        name := event.name
        requestType := event.requestType
        response := event.response
        responseTime := rt.elapsed event.startPerfCounter now
        responseLength := event.responseLength.getD 0
        exception := event.exception }
      logged := match event.eventType with
        | some _ => .ok ()
        | none => .error rt.keyError }

-- ---------------------------------------------------------------------------
-- The wrapper
-- ---------------------------------------------------------------------------

/-- How a function ends, or a call of it. -/
inductive Outcome (R E : Type)
  | returned (response : R)
  | raised (err : E)
  deriving DecidableEq, Repr

/-- A call of `statistics_collector(name)(func)`. -/
structure Call (A : Type) where
  name : Option String
  funcName : String
  args : A

/-- `func.__name__.replace('_', ' ').title()` -/
def Call.title (rt : Runtime R E A T) (c : Call A) : String :=
  rt.title (String.ofList (c.funcName.toList.map fun ch => if ch = '_' then ' ' else ch))

def Call.requestType (rt : Runtime R E A T) (c : Call A) : String :=
  match c.name with
  | some name => if name = "" then c.title rt else name
  | none => c.title rt

/-- The event of the `try` statement: both branches build one. -/
inductive Update (R E : Type)
  | success (response : R) (responseLength : Nat)
  | failure (err : E)
  deriving DecidableEq, Repr

/-- `except Exception as err` -/
def caught (rt : Runtime R E A T) (err : E) : Except E (Update R E) :=
  if rt.isException err then .ok (.failure err) else .error err

/-- The `try` statement, from the end of the function on. Measuring the response is part of
it. -/
def tryFunc (rt : Runtime R E A T) : Outcome R E → Except E (Update R E)
  | .raised err => caught rt err
  | .returned response =>
    match rt.getsizeof response with
    | .ok responseLength => .ok (.success response responseLength)
    | .error err => caught rt err

/-- `buffer[task_id].update(event)` -/
def Entry.update (entry : Entry R E T) : Update R E → Entry R E T
  | .success response responseLength => { entry with
      response := some response
      responseLength := some responseLength
      eventType := some "success" }
  | .failure err => { entry with
      eventType := some "failure"
      exception := some err }

/-- From the update of the entry to the event. -/
def reportEvent (rt : Runtime R E A T) (buffer : Dict Id (Entry R E T)) (taskId : Id)
    (event : Update R E) (now : T) : Except E (Fired Id R E T) :=
  match buffer.get? taskId with
  | none => .error rt.keyError
  | some entry => fireEvent rt (buffer.set taskId (entry.update event)) taskId now

/-- What is left after the event: the response is returned, or the error is logged and raised
again. -/
def answer (rt : Runtime R E A T) (args : A) : Update R E → Outcome R E
  | .success response _ => .returned response
  | .failure err =>
    match rt.formatting err args with
    | none => .raised err
    | some other => .raised other

-- ---------------------------------------------------------------------------
-- Calls under way
-- ---------------------------------------------------------------------------

/-- Where the call of a task id is. `outcome` is how its function ended; nothing reads it
but the account. -/
inductive Phase (R E A : Type)
  | absent
  | inFunc (call : Call A)
  | tried (call : Call A) (outcome : Outcome R E) (event : Update R E)
  | reported (call : Call A) (outcome : Outcome R E) (event : Update R E)
  /-- `result` is what reached the caller -/
  | ended (call : Call A) (outcome result : Outcome R E)

structure State (Id R E A T : Type) where
  buffer : Dict Id (Entry R E T)
  /-- the request events, each with the call that fired it -/
  fired : List (Id × RequestMeta R E T)
  phase : Id → Phase R E A

inductive Event (Id R E A T : Type)
  | begin (taskId : Id) (call : Call A) (startTime startPerfCounter : T)
  | finish (taskId : Id) (outcome : Outcome R E)
  | report (taskId : Id) (now : T)
  | leave (taskId : Id)

def State.setPhase (s : State Id R E A T) (taskId : Id) (phase : Phase R E A) :
    State Id R E A T :=
  { s with phase := Function.update s.phase taskId phase }

/-- `none`: the event cannot happen. A task id is a new UUID. -/
def step (rt : Runtime R E A T) (s : State Id R E A T) : Event Id R E A T →
    Option (State Id R E A T)
  | .begin taskId call startTime startPerfCounter =>
    match s.phase taskId, s.buffer.get? taskId with
    | .absent, none => some { s.setPhase taskId (.inFunc call) with
        buffer := initEvent s.buffer taskId (call.requestType rt) startTime startPerfCounter }
    | _, _ => none
  | .finish taskId outcome =>
    match s.phase taskId with
    | .inFunc call =>
      match tryFunc rt outcome with
      | .ok event => some (s.setPhase taskId (.tried call outcome event))
      | .error err => some (s.setPhase taskId (.ended call outcome (.raised err)))
    | _ => none
  | .report taskId now =>
    match s.phase taskId with
    | .tried call outcome event =>
      match reportEvent rt s.buffer taskId event now with
      | .error err => some (s.setPhase taskId (.ended call outcome (.raised err)))
      | .ok fired => some { s.setPhase taskId (match fired.logged with
            | .ok _ => .reported call outcome event
            | .error err => .ended call outcome (.raised err)) with
          buffer := fired.buffer
          fired := s.fired ++ [(taskId, fired.requestMeta)] }
    | _ => none
  | .leave taskId =>
    match s.phase taskId with
    | .reported call outcome event =>
      some (s.setPhase taskId (.ended call outcome (answer rt call.args event)))
    | _ => none

/-- Before the first call; the buffer may hold entries of others. -/
def initial (buffer : Dict Id (Entry R E T)) : State Id R E A T where
  buffer := buffer
  fired := []
  phase _ := .absent

end NeonTests.Statistics
