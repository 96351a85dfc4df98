import NeonTests.ErrorLog.Summaries

/-!
# Command line — the decorator that reports crashes

`catch_traceback` of `clickfile.py`. An exception is what the code asks of it: its arguments when
it is a `SystemExit`, whether it counts as true, and its text; the last two are methods that may
raise. The wrapped function may itself write to the error log. The handler's own operations on the
log, from the lock to the writing of the file, may each raise.

* `transparent_iff` — when the decorator does what it is for.
-/

namespace NeonTests.Clickfile

open Python ErrorLog Runs

/-! ## Exceptions -/

/-- An argument of `SystemExit`. Of an object of any other type, the interpreter asks whether it
is an integer that is zero, and the code for `argument != 0`. -/
inductive ExitArg
  | none
  | int (n : Int)
  | str (s : String)
  | object (zero : Bool) (neZero : Except PyError Bool)

/-- `argument != 0` -/
def ExitArg.neZero : ExitArg → Except PyError Bool
  | none => .ok true
  | int n => .ok (n ≠ 0)
  | str _ => .ok true
  | object _ neZero => neZero

structure BaseException where
  /-- `e.args` of a `SystemExit` -/
  exitArgs : Option (List ExitArg)
  className : String
  /-- `bool(e)` -/
  truth : Except PyError Bool
  /-- `str(e)` -/
  text : Except PyError String

/-- The exit code is the argument; no argument and `None` mean success, as zero does, and several
arguments are a tuple, which does not. -/
def meansSuccess (args : List ExitArg) : Bool :=
  match args with
  | [] => true
  | [.none] => true
  | [.int n] => n = 0
  | [.object zero _] => zero
  | _ => false

/-- How the wrapped function ends. -/
inductive Ending (V : Type)
  | returned (value : V)
  | raised (e : BaseException)

/-- How the wrapper ends: also with `None`, or with an exception of its own. -/
inductive Outcome (V : Type)
  | returned (value : V)
  | returnedNone
  | raised (e : BaseException)
  | replaced (e : PyError)

/-- How `write_text` ends: what a failed one leaves of the file need not be a document. -/
inductive WriteEnding
  | written
  | failed (e : PyError) (left : File)

/-- What becomes of the handler's operations on the log. -/
structure LogIo where
  /-- `has_logs` opens and reads the file -/
  query : Except PyError Unit
  acquire : Except PyError Unit
  /-- the update opens and reads it, under the lock -/
  reread : Except PyError Unit
  write : WriteEnding
  release : Except PyError Unit

/-! ## The decorator -/

def ERR_MESSAGES : Dict String String := Dict.ofList [
  ("run", "Unsuccessful tests executing"),
  ("requirements", "Unsuccessful requirements installation")]

/-- `ERR_MESSAGES.get(func_name) or f"{exc.__class__.__name__}({exc})"` -/
def errMsg (funcName : String) (exc : BaseException) : Except PyError String :=
  match ERR_MESSAGES.get? funcName with
  | some msg => .ok msg
  | none => exc.text.map fun text => exc.className ++ "(" ++ text ++ ")"

/-- `error_log.has_logs()` -/
def hasLogs (io : LogIo) (file : File) : Except PyError Bool := do
  io.query
  file.read.map ErrorLogModel.hasLogs

/-- The body of `_update`, inside the lock. -/
def updateComment (io : LogIo) (text : String) (file : File) : Except PyError Unit × File :=
  match io.reread >>= fun _ => file.read with
  | .error x => (.error x, file)
  | .ok log =>
    match io.write with
    | .written => (.ok (), .document (dump { log with comments := log.comments ++ [text] }))
    | .failed e left => (.error e, left)

/-- `error_log.add_comment(text)`, from the lock to its release. -/
def addComment (io : LogIo) (text : String) (file : File) : Except PyError Unit × File :=
  match io.acquire with
  | .error x => (.error x, file)
  | .ok _ =>
    let (outcome, file) := updateComment io text file
    -- the lock is released in any case, and what that raises comes out
    (io.release >>= fun _ => outcome, file)

def addErrorLogComment (io : LogIo) (funcName : String) (exc : BaseException) (file : File) :
    Except PyError Unit × File :=
  match errMsg funcName exc with
  | .error x => (.error x, file)
  | .ok msg => addComment io (funcName ++ ": " ++ msg) file

/-- The `except` clauses: what `error` is after them. -/
def savedError (e : BaseException) : Except PyError (Option BaseException) :=
  match e.exitArgs with
  | some args =>
    match args with
    | [] => .error .indexError
    | exitCode :: _ => exitCode.neZero.map fun failed => if failed then some e else none
  | none => .ok (some e)

/-- The `finally` block with an error. -/
def finallyBlock {V : Type} (io : LogIo) (funcName : String) (error : BaseException)
    (file : File) : Outcome V × File :=
  match error.truth with
  | .error x => (.replaced x, file)
  | .ok false => (.returnedNone, file)
  | .ok true =>
    match hasLogs io file with
    | .error x => (.replaced x, file)
    | .ok true => (.raised error, file)
    | .ok false =>
      match addErrorLogComment io funcName error file with
      | (.error x, file) => (.replaced x, file)
      | (.ok _, file) => (.raised error, file)

/-- `catch_traceback(func)(*args, **kwargs)`, with the file before it. -/
def catchTraceback {A V : Type} (io : LogIo) (funcName : String)
    (func : A → File → Ending V × File) (args : A) (file : File) : Outcome V × File :=
  let (ending, file) := func args file
  match ending with
  | .returned value => (.returned value, file)
  | .raised e =>
    match savedError e with
    | .error x => (.replaced x, file)
    | .ok none => (.returnedNone, file)
    | .ok (some error) => finallyBlock io funcName error file

/-! ## What it is for -/

def BaseException.meansSuccess (e : BaseException) : Bool := e.exitArgs.any Clickfile.meansSuccess

/-- One comment that names the function, where the log had no failed test; otherwise none. -/
def Reported (funcName : String) (before after : File) : Prop :=
  ∃ log log', before.read = .ok log ∧ after.read = .ok log' ∧
    ((∀ g, log.count g = 0) →
      ∃ msg, log' = { log with comments := log.comments ++ [funcName ++ ": " ++ msg] }) ∧
    ((∃ g, log.count g ≠ 0) → log' = log)

/-- Values pass through; an exit that means success leaves no comment and is not replaced; every
other exception reaches the caller and is reported. -/
def Transparent {V : Type} (funcName : String) (ended : Ending V × File)
    (result : Outcome V × File) : Prop :=
  match ended.1 with
  | .returned value => result = (.returned value, ended.2)
  | .raised e =>
    if e.meansSuccess then
      result.2 = ended.2 ∧ (result.1 = .returnedNone ∨ result.1 = .raised e)
    else result.1 = .raised e ∧ Reported funcName ended.2 result.2

/-! ## When it is that -/

/-- There is a message for the function, or the exception has a text. -/
def Describable (funcName : String) (e : BaseException) : Prop :=
  ERR_MESSAGES.get? funcName ≠ none ∨ ∃ text, e.text = .ok text

/-- The comment can be written: the lock is got, the file read and written, the lock released. -/
structure LogIo.Writes (io : LogIo) : Prop where
  acquire : io.acquire = .ok ()
  reread : io.reread = .ok ()
  write : io.write = .written
  release : io.release = .ok ()

/-- The log can be read, and has a failed test or no group at all, something to comment and a
place to write it. -/
def Reportable (io : LogIo) (funcName : String) (e : BaseException) (file : File) : Prop :=
  e.truth = .ok true ∧ io.query = .ok () ∧ ∃ log, file.read = .ok log ∧
    if log.hasLogs then ∃ g, log.count g ≠ 0 else Describable funcName e ∧ io.Writes

/-- The exception counts as false, or there is a group in the log. -/
def Unreported (io : LogIo) (e : BaseException) (file : File) : Prop :=
  e.truth = .ok false ∨
    e.truth = .ok true ∧ io.query = .ok () ∧ ∃ log, file.read = .ok log ∧ log.hasLogs = true

/-- What `exit_code != 0` gives for a `SystemExit` with an argument. -/
def Compares (e : BaseException) (failed : Bool) : Prop :=
  ∃ exitCode rest, e.exitArgs = some (exitCode :: rest) ∧ exitCode.neZero = .ok failed

def Handled {V : Type} (io : LogIo) (funcName : String) (ended : Ending V × File) : Prop :=
  match ended.1 with
  | .returned _ => True
  | .raised e =>
    if e.meansSuccess then Compares e false ∨ Compares e true ∧ Unreported io e ended.2
    else (e.exitArgs = none ∨ Compares e true) ∧ Reportable io funcName e ended.2

theorem errMsg_ok_iff {funcName : String} {e : BaseException} :
    (∃ msg, errMsg funcName e = .ok msg) ↔ Describable funcName e := by
  rw [errMsg, Describable]
  rcases ERR_MESSAGES.get? funcName with _ | msg
  · rcases e.text with x | text <;> simp [Except.map]
  · simp

theorem count_eq_zero {log : ErrorLogModel} (h : log.hasLogs = false) (g : TestGroup) :
    log.count g = 0 := by
  rw [← Bool.not_eq_true, hasLogs_iff] at h
  push Not at h
  simp [ErrorLogModel.count, ErrorLogModel.entries, Dict.group, h g]

variable {io : LogIo} {file : File} {text : String}

/-- A query of a log that can be read. -/
theorem hasLogs_eq {log : ErrorLogModel} (hquery : io.query = .ok ()) (hread : file.read = .ok log) :
    hasLogs io file = .ok log.hasLogs := by
  rw [hasLogs, hquery, hread]
  rfl

theorem hasLogs_ok {b : Bool} (h : hasLogs io file = .ok b) :
    io.query = .ok () ∧ ∃ log, file.read = .ok log ∧ log.hasLogs = b := by
  obtain ⟨_, hquery, h⟩ := Fallible.bind_eq_ok.mp h
  refine ⟨hquery, ?_⟩
  rcases hread : file.read with x | log
  · rw [hread] at h
    cases h
  · rw [hread] at h
    exact ⟨log, rfl, Except.ok.inj h⟩

/-- On a log that can be read the comment is added where it can be written; otherwise something
is raised. -/
theorem addComment_ok_iff {log : ErrorLogModel} (hread : file.read = .ok log) {after : File} :
    addComment io text file = (.ok (), after) ↔
      io.Writes ∧ after = .document (dump { log with comments := log.comments ++ [text] }) := by
  constructor
  · intro h
    rw [addComment] at h
    rcases hacquire : io.acquire with x | _
    · rw [hacquire] at h
      cases h
    rcases hrelease : io.release with x | _
    · rw [hacquire, hrelease] at h
      cases h
    rcases hreread : io.reread with x | _
    · rw [hacquire, hrelease, updateComment, hreread] at h
      cases h
    rcases hwrite : io.write with _ | ⟨x, left⟩
    · rw [hacquire, hrelease, updateComment, hreread, hread, hwrite] at h
      exact ⟨⟨hacquire, hreread, hwrite, hrelease⟩, (Prod.mk.inj h).2.symm⟩
    · rw [hacquire, hrelease, updateComment, hreread, hread, hwrite] at h
      cases h
  · rintro ⟨hwrites, rfl⟩
    rw [addComment, hwrites.acquire, updateComment, hwrites.reread, hwrites.write, hwrites.release,
      hread]
    rfl

/-- The comment of the decorator is what a process makes of the shared file that gets the lock
for it and keeps to it. -/
theorem addComment_run {Proc : Type} [DecidableEq Proc] {s : System Proc} {p : Proc}
    {after : File} (hfree : s.holder = none) (hp : p ∈ s.constructed) {log : ErrorLogModel}
    (hread : s.file.read = .ok log) (h : addComment io text s.file = (.ok (), after)) :
    run step s [.acquire p (.update (.addComment text)), .advance p, .advance p, .advance p,
      .advance p] = some { s with file := after } := by
  obtain ⟨-, rfl⟩ := (addComment_ok_iff hread).mp h
  obtain ⟨file, constructed, holder⟩ := s
  cases hfree
  simp [run, step, advance, hp, hread, Update.body]

variable {V : Type} {funcName : String} {e : BaseException}

/-- A comment that was added. -/
theorem addErrorLogComment_ok_iff {log : ErrorLogModel} (hread : file.read = .ok log)
    {after : File} : addErrorLogComment io funcName e file = (.ok (), after) ↔
      io.Writes ∧ ∃ msg, errMsg funcName e = .ok msg ∧ after = .document
        (dump { log with comments := log.comments ++ [funcName ++ ": " ++ msg] }) := by
  rw [addErrorLogComment]
  rcases errMsg funcName e with x | msg
  · simp
  · simp [addComment_ok_iff hread]

/-- The `finally` block, by what it meets: a failure of its own, a false exception, a log with a
group, or a log that gets the comment. -/
theorem finallyBlock_cases (io : LogIo) (funcName : String) (e : BaseException) (file : File) :
    (¬ Reportable io funcName e file ∧ ¬ Unreported io e file ∧
      ∃ x left, (finallyBlock io funcName e file : Outcome V × File) = (.replaced x, left)) ∨
    (e.truth = .ok false ∧
      (finallyBlock io funcName e file : Outcome V × File) = (.returnedNone, file)) ∨
    (e.truth = .ok true ∧ io.query = .ok () ∧ ∃ log, file.read = .ok log ∧ log.hasLogs = true ∧
      (finallyBlock io funcName e file : Outcome V × File) = (.raised e, file)) ∨
    (e.truth = .ok true ∧ io.query = .ok () ∧ io.Writes ∧ ∃ log msg after,
      file.read = .ok log ∧ log.hasLogs = false ∧ errMsg funcName e = .ok msg ∧
      (finallyBlock io funcName e file : Outcome V × File) = (.raised e, after) ∧
      after.read = .ok { log with comments := log.comments ++ [funcName ++ ": " ++ msg] }) := by
  rcases htruth : e.truth with x | _ | _
  · exact .inl ⟨by simp [Reportable, htruth], by simp [Unreported, htruth], x, file,
      by simp [finallyBlock, htruth]⟩
  · exact .inr (.inl ⟨rfl, by simp [finallyBlock, htruth]⟩)
  rcases hquery : hasLogs io file with x | b
  · have hunread : ¬ (io.query = .ok () ∧ ∃ log, file.read = .ok log) := by
      rintro ⟨hok, log, hread⟩
      rw [hasLogs_eq hok hread] at hquery
      cases hquery
    refine .inl ⟨?_, ?_, x, file, by simp [finallyBlock, htruth, hquery]⟩
    · rintro ⟨-, hok, log, hread, -⟩
      exact hunread ⟨hok, log, hread⟩
    · rintro (hfalse | ⟨-, hok, log, hread, -⟩)
      · rw [htruth] at hfalse
        cases hfalse
      · exact hunread ⟨hok, log, hread⟩
  obtain ⟨hok, log, hread, hlogs⟩ := hasLogs_ok hquery
  cases b with
  | true =>
    exact .inr (.inr (.inl ⟨rfl, hok, log, hread, hlogs, by simp [finallyBlock, htruth, hquery]⟩))
  | false =>
    rcases hadded : addErrorLogComment io funcName e file with ⟨x | _, after⟩
    · refine .inl ⟨?_, by simp [Unreported, htruth, hread, hlogs], x, after,
        by simp [finallyBlock, htruth, hquery, hadded]⟩
      rintro ⟨-, -, log', hread', hcan⟩
      obtain rfl : log = log' := Except.ok.inj (hread.symm.trans hread')
      rw [hlogs, if_neg Bool.false_ne_true, ← errMsg_ok_iff] at hcan
      obtain ⟨⟨msg, hmsg⟩, hwrites⟩ := hcan
      have := (addErrorLogComment_ok_iff hread).mpr ⟨hwrites, msg, hmsg, rfl⟩
      rw [hadded] at this
      cases this
    · obtain ⟨hwrites, msg, hmsg, hafter⟩ := (addErrorLogComment_ok_iff hread).mp hadded
      have hlog : after.read =
          .ok { log with comments := log.comments ++ [funcName ++ ": " ++ msg] } := by
        rw [hafter]
        exact load_dump _
      exact .inr (.inr (.inr ⟨rfl, hok, hwrites, log, msg, after, hread, hlogs, hmsg,
        by simp [finallyBlock, htruth, hquery, hadded], hlog⟩))

theorem reported_iff {before after : File} {log log' : ErrorLogModel}
    (hbefore : before.read = .ok log) (hafter : after.read = .ok log') :
    Reported funcName before after ↔
      ((∀ g, log.count g = 0) →
        ∃ msg, log' = { log with comments := log.comments ++ [funcName ++ ": " ++ msg] }) ∧
      ((∃ g, log.count g ≠ 0) → log' = log) := by
  simp [Reported, hbefore, hafter]

theorem reportable_iff {log : ErrorLogModel} (htruth : e.truth = .ok true)
    (hquery : io.query = .ok ()) (hread : file.read = .ok log) :
    Reportable io funcName e file ↔
      if log.hasLogs then ∃ g, log.count g ≠ 0 else Describable funcName e ∧ io.Writes := by
  simp [Reportable, htruth, hquery, hread]

/-- The block reports an exception. -/
theorem finallyBlock_reports_iff :
    (finallyBlock io funcName e file : Outcome V × File).1 = .raised e ∧
        Reported funcName file (finallyBlock io funcName e file : Outcome V × File).2 ↔
      Reportable io funcName e file := by
  obtain ⟨hnot, -, x, left, hblock⟩ | ⟨htruth, hblock⟩ |
    ⟨htruth, hquery, log, hread, hlogs, hblock⟩ |
    ⟨htruth, hquery, hwrites, log, msg, after, hread, hlogs, hmsg, hblock, hafter⟩ :=
    finallyBlock_cases (V := V) io funcName e file
  · simp [hblock, hnot]
  · simp [hblock, Reportable, htruth]
  · rw [hblock, reported_iff hread hread, reportable_iff htruth hquery hread, if_pos hlogs]
    refine ⟨?_, fun hnames => ⟨rfl, fun hnone => ?_, fun _ => rfl⟩⟩
    · rintro ⟨-, hadded, -⟩
      by_contra hnone
      push Not at hnone
      obtain ⟨msg, hmsg⟩ := hadded hnone
      have := congrArg (fun log => log.comments.length) hmsg
      simp at this
    · obtain ⟨g, hg⟩ := hnames
      exact (hg (hnone g)).elim
  · have hnone := count_eq_zero hlogs
    rw [hblock, reported_iff hread hafter, reportable_iff htruth hquery hread, hlogs,
      ← errMsg_ok_iff, hmsg]
    simp [hnone, hwrites]

/-- The block leaves no comment and puts no exception of its own in place of `e`. -/
theorem finallyBlock_quiet_iff :
    (finallyBlock io funcName e file : Outcome V × File).2 = file ∧
        ((finallyBlock io funcName e file : Outcome V × File).1 = .returnedNone ∨
          (finallyBlock io funcName e file : Outcome V × File).1 = .raised e) ↔
      Unreported io e file := by
  obtain ⟨-, hnot, x, left, hblock⟩ | ⟨htruth, hblock⟩ |
    ⟨htruth, hquery, log, hread, hlogs, hblock⟩ |
    ⟨htruth, hquery, hwrites, log, msg, after, hread, hlogs, hmsg, hblock, hafter⟩ :=
    finallyBlock_cases (V := V) io funcName e file
  · simp [hblock, hnot]
  · simp [hblock, Unreported, htruth]
  · simp [hblock, Unreported, htruth, hquery, hread, hlogs]
  · have hchanged : after ≠ file := by
      rintro rfl
      rw [hread] at hafter
      have := congrArg (fun log => log.comments.length) (Except.ok.inj hafter)
      simp at this
    simp [hblock, Unreported, htruth, hread, hlogs, hchanged]

/-! ## The decorator as a whole -/

theorem compares_iff {exitCode : ExitArg} {rest : List ExitArg}
    (h : e.exitArgs = some (exitCode :: rest)) (failed : Bool) :
    Compares e failed ↔ exitCode.neZero = .ok failed := by
  simp [Compares, h]

/-- **Transparent and never silent.** For every function, its arguments and the way it ends, the
decorator does what it is for if and only if the function returns, or its exception is one that
the handler handles: an exit with success has an argument that compares equal to zero, or is not
reported; any other exception has no argument that compares equal to zero, and can be reported:
the log can be read, and written if there is something to write. -/
theorem transparent_iff {A : Type} (io : LogIo) (funcName : String)
    (func : A → File → Ending V × File) (args : A) (file : File) :
    Transparent funcName (func args file) (catchTraceback io funcName func args file) ↔
      Handled io funcName (func args file) := by
  rw [catchTraceback]
  obtain ⟨ending, after⟩ := func args file
  cases ending with
  | returned value => simp [Transparent, Handled]
  | raised e =>
    simp only [Transparent, Handled]
    rcases hargs : e.exitArgs with _ | _ | ⟨exitCode, rest⟩
    · have hsuccess : e.meansSuccess = false := by simp [BaseException.meansSuccess, hargs]
      simp [savedError, hargs, hsuccess, finallyBlock_reports_iff]
    · have hsuccess : e.meansSuccess = true := by
        simp [BaseException.meansSuccess, hargs, Clickfile.meansSuccess]
      simp [savedError, hargs, hsuccess, Compares]
    · rw [compares_iff hargs, compares_iff hargs]
      rcases hzero : exitCode.neZero with x | _ | _
      · cases hsuccess : e.meansSuccess <;>
          simp [savedError, hargs, hzero, Except.map]
      · cases hsuccess : e.meansSuccess <;>
          simp [savedError, hargs, hzero, Except.map]
      · cases hsuccess : e.meansSuccess
        · simp [savedError, hargs, hzero, Except.map, finallyBlock_reports_iff]
        · simp [savedError, hargs, hzero, Except.map, finallyBlock_quiet_iff]

/-- `sys.exit(*args)` in a function with a fresh log. -/
def exits (exitArgs : List ExitArg) : Unit → File → Ending Unit × File :=
  fun _ file => (.raised ⟨some exitArgs, "SystemExit", .ok true, .ok ""⟩, file)

def freshLog : File := .document (dump .default)

/-- The log after `add_failures("oz", [])`. -/
def emptyGroup : File :=
  .document (dump { ErrorLogModel.default with failures := Dict.empty.extend .oz [] })

/-- Nothing fails. -/
def soundIo : LogIo := ⟨.ok (), .ok (), .ok (), .written, .ok ()⟩

/-- Without an argument the handler's own `IndexError` comes out; a tuple that starts with zero
is taken for success; and a group without names keeps the comment away. -/
theorem catchTraceback_not_transparent :
    (catchTraceback soundIo "f" (exits []) () freshLog).1 = .replaced .indexError ∧
    (catchTraceback soundIo "f" (exits [.int 0, .str "failed"]) () freshLog).1 = .returnedNone ∧
    ¬ Transparent "f" (exits [] () freshLog) (catchTraceback soundIo "f" (exits []) () freshLog) ∧
    ¬ Transparent "f" (exits [.int 0, .str "failed"] () freshLog)
      (catchTraceback soundIo "f" (exits [.int 0, .str "failed"]) () freshLog) ∧
    ¬ Transparent "f" (exits [.int 1] () emptyGroup)
      (catchTraceback soundIo "f" (exits [.int 1]) () emptyGroup) := by
  refine ⟨rfl, rfl, ?_, ?_, ?_⟩
  · rintro ⟨-, h | h⟩ <;> cases h
  · rintro ⟨h, -⟩
    cases h
  · intro h
    have hreportable : Reportable soundIo "f" ⟨some [.int 1], "SystemExit", .ok true, .ok ""⟩
        emptyGroup := finallyBlock_reports_iff.mp h
    obtain ⟨-, -, log, hread, hnames⟩ := hreportable
    obtain rfl : { ErrorLogModel.default with failures := Dict.empty.extend .oz [] } = log :=
      Except.ok.inj ((load_dump _).symm.trans hread)
    obtain ⟨g, hg⟩ := hnames
    cases g <;> exact hg rfl

end NeonTests.Clickfile
