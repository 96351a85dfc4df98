import NeonTests.ErrorLog.Summaries

/-!
# Error log — the readers that take no lock

`read`, `has_logs` and `get_count_by_group` open the file and load it whoever is inside the lock.
`json.load` calls `read()` on the file until nothing comes, so a load is several operations on the
file, and what it has got is a piece of each content it has met.

* `Shared` — the log with its readers. Three history variables say what the statement is about: the
  calls that have taken effect, for every reader those at each moment since it was called, and
  whether it has got all the file held;
* `reads_whole` — a reader gets a log of one of those moments, unless a `read()` of its meets
  neither a document that goes on from what it has got nor the end of one it has got whole.
-/

namespace NeonTests.ErrorLog

open Endian Python Fallible Runs

/-! ## The text -/

/-- The text of a document, as `model_dump_json(indent=4)` writes it and `json.loads` reads it. -/
structure Codec where
  encode : Json → Bytes
  decode : Bytes → Except PyError Json

def Codec.content (codec : Codec) : File → Bytes
  | .absent | .truncated => []
  | .document j => codec.encode j

/-- The document in the file is loaded from its text as it was written. -/
def Codec.ReadsBack (codec : Codec) : File → Prop
  | .absent | .truncated => True
  | .document j => (codec.decode (codec.encode j) >>= load) = load j

/-- The file holds a document that goes on from what has been got. -/
def Codec.Continues (codec : Codec) (got : Bytes) : File → Prop
  | .absent | .truncated => False
  | .document j => got <+: codec.encode j

instance (codec : Codec) (got : Bytes) : DecidablePred (codec.Continues got)
  | .absent | .truncated => .isFalse id
  | .document j => inferInstanceAs (Decidable (got <+: codec.encode j))

/-- What one `read()` gets from the place where the last one ended. -/
def nextChunk (content got : Bytes) (n : Nat) : Bytes := (content.drop got.length).take (n + 1)

theorem nextChunk_eq_nil {content got : Bytes} {n : Nat} :
    nextChunk content got n = [] ↔ content.length ≤ got.length := by
  rw [nextChunk, List.take_eq_nil_iff, List.drop_eq_nil_iff]
  simp

/-- What has been got stays a piece of the document. -/
theorem append_nextChunk_prefix {content got : Bytes} (h : got <+: content) (n : Nat) :
    got ++ nextChunk content got n <+: content := by
  obtain ⟨rest, rfl⟩ := h
  rw [nextChunk, List.drop_left]
  exact (List.prefix_append_right_inj got).mpr (List.take_prefix _ _)

/-! ## The readers -/

/-- What is called; all three start with `read`. -/
inductive Query
  | read
  | hasLogs
  | getCountByGroup
  deriving DecidableEq, Repr

inductive Answer
  | log (log : ErrorLogModel)
  | flag (b : Bool)
  | counts (d : Dict TestGroup Nat)

def Query.answer (log : ErrorLogModel) : Query → Answer
  | read => .log log
  | hasLogs => .flag log.hasLogs
  | getCountByGroup => .counts log.getCountByGroup

/-- How far a reader has come. -/
inductive ReadStage
  | called
  /-- inside `json.load`. `full` is history: with the last `read()` it had all the file held -/
  | reading (got : Bytes) (full : Bool)
  | returned (outcome : Except PyError Answer)

variable (Proc : Type)

structure Reader where
  query : Query
  stage : ReadStage
  /-- history: the calls that had taken effect, at every moment since the query was called -/
  moments : List (List (Proc × Call))

structure Shared where
  log : System Proc
  /-- history: the calls that have taken effect -/
  completed : List (Proc × Call)
  readers : Proc → Option (Reader Proc)

inductive SharedEvent
  | locked (e : Event Proc)
  | query (p : Proc) (query : Query)
  | openFile (p : Proc)
  /-- one `read()`, of at most `n + 1` bytes -/
  | readFile (p : Proc) (n : Nat)
  | leave (p : Proc)

variable {Proc}

def Reader.sees (r : Reader Proc) (completed : List (Proc × Call)) : Reader Proc :=
  { r with moments := completed :: r.moments }

def Event.process : Event Proc → Proc
  | .acquire p _ => p
  | .advance p => p

variable [DecidableEq Proc]

def Shared.setReader (s : Shared Proc) (p : Proc) (r : Option (Reader Proc)) : Shared Proc :=
  { s with readers := Function.update s.readers p r }

variable (codec : Codec)

/-- What a reader comes to with a `read()`: nothing more ends the load. -/
def readStage (query : Query) (content got : Bytes) (n : Nat) : ReadStage :=
  let chunk := nextChunk content got n
  if chunk = [] then .returned ((codec.decode got >>= load).map query.answer)
  else .reading (got ++ chunk) (decide (content.length ≤ (got ++ chunk).length))

/-- A process is in one call at a time, and every method needs an object. -/
def sharedStep (s : Shared Proc) : SharedEvent Proc → Option (Shared Proc)
  | .locked e =>
    if (s.readers e.process).isNone then
      (step s.log e).map fun log =>
        let completed := s.completed ++ commits s.log e
        { log, completed, readers := fun p => (s.readers p).map (Reader.sees · completed) }
    else none
  | .query p query =>
    if p ∈ s.log.constructed ∧ (s.readers p).isNone ∧ s.log.holder.all fun x => x.1 ≠ p then
      some (s.setReader p (some ⟨query, .called, [s.completed]⟩))
    else none
  | .openFile p =>
    match s.readers p with
    | some ⟨query, .called, moments⟩ =>
      match s.log.file with
      | .absent =>
        some (s.setReader p (some ⟨query, .returned (.error .fileNotFoundError), moments⟩))
      | _ => some (s.setReader p (some ⟨query, .reading [] false, moments⟩))
    | _ => none
  | .readFile p n =>
    match s.readers p with
    | some ⟨query, .reading got _, moments⟩ =>
      some (s.setReader p
        (some ⟨query, readStage codec query (codec.content s.log.file) got n, moments⟩))
    | _ => none
  | .leave p =>
    match s.readers p with
    | some ⟨_, .returned _, _⟩ => some (s.setReader p none)
    | _ => none

variable (Proc) in
/-- Before any process of the run. -/
def Shared.initial (file : File) : Shared Proc := ⟨ErrorLog.initial Proc file, [], fun _ => none⟩

/-- What a query has returned is the answer on the log of some moment since its call. -/
def Reader.Whole (start : Reading) (r : Reader Proc) : Prop :=
  ∀ outcome, r.stage = .returned outcome →
    ∃ calls ∈ r.moments, ∃ log, replay start calls = .ok log ∧ outcome = .ok (r.query.answer log)

/-- The content that a `read()` meets does not go on from what has been got, and there is
something to be got or missing. -/
def Tears (file : File) : ReadStage → Prop
  | .reading got full =>
    ¬ codec.Continues got file ∧ ¬ (full = true ∧ (codec.content file).length ≤ got.length)
  | _ => False

instance (file : File) : DecidablePred (Tears codec file)
  | .reading got full => inferInstanceAs (Decidable (¬ codec.Continues got file ∧
      ¬ (full = true ∧ (codec.content file).length ≤ got.length)))
  | .called | .returned _ => .isFalse id

/-- A reader meets such a content. -/
def Torn (s : Shared Proc) : SharedEvent Proc → Prop
  | .readFile p _ => ∃ r ∈ s.readers p, Tears codec s.log.file r.stage
  | _ => False

instance (s : Shared Proc) : DecidablePred (Torn codec s)
  | .readFile p _ => inferInstanceAs (Decidable (∃ r ∈ s.readers p, Tears codec s.log.file r.stage))
  | .locked _ | .query _ _ | .openFile _ | .leave _ => .isFalse id

/-! ## What a step keeps -/

/-- The file stands for the calls that have taken effect, and every reader has seen them. -/
structure Coherent (start : Reading) (s : Shared Proc) : Prop where
  represents : Represents s.log (replay start s.completed)
  rewriting : ∀ p call j, s.log.holder = some (p, call, .opened j) → s.log.file = .truncated
  readers : ∀ p r, s.readers p = some r → s.completed ∈ r.moments ∧ s.log.constructed ≠ []

omit [DecidableEq Proc] in
/-- Outside a rewrite the file reads as the calls that have taken effect made it. -/
theorem Coherent.read {start : Reading} {s : Shared Proc} (h : Coherent start s)
    (hconstructed : s.log.constructed ≠ []) (hfile : s.log.file ≠ .truncated) :
    s.log.file.read = replay start s.completed := by
  rw [← log_eq_read (h.represents.present hconstructed)]
  rcases hholder : s.log.holder with _ | ⟨p, call, stage⟩
  · exact h.represents.free hholder
  · obtain ⟨-, -, hat⟩ := h.represents.held p call stage hholder
    cases stage with
    | entered => exact hat
    | loaded log => exact hat.2.1
    | opened j => exact (hfile (h.rewriting p call j hholder)).elim
    | leaving outcome => exact hat

theorem advance_opened {file : File} {call : Call} {stage : Stage} {j : Json}
    (hstage : stage.isLeaving = false) (h : (advance file call stage).2 = .opened j) :
    (advance file call stage).1 = .truncated := by
  cases stage with
  | leaving outcome => cases hstage
  | opened j' => cases call <;> cases h
  | loaded log =>
    cases call with
    | update u => cases hbody : u.body log <;> simp_all [advance]
    | _ => cases h
  | entered =>
    cases call with
    | construct => cases file <;> simp_all [advance]
    | clear => rfl
    | update u => cases hread : file.read <;> simp_all [advance]

/-- A step of the writers. -/
theorem Coherent.locked {start : Reading} {s : Shared Proc} (h : Coherent start s)
    {e : Event Proc} {log : System Proc} (hstep : step s.log e = some log) :
    Coherent start ⟨log, s.completed ++ commits s.log e,
      fun p => (s.readers p).map (Reader.sees · (s.completed ++ commits s.log e))⟩ where
  represents := by
    rw [replay_append]
    exact represents_step h.represents hstep
  rewriting := by
    intro p call j hholder
    obtain ⟨q, call', rfl, -, -, rfl⟩ | ⟨q, call', outcome, rfl, -, rfl⟩ |
      ⟨q, call', stage, rfl, -, hstage, rfl⟩ := step_cases hstep
    · cases hholder
    · cases hholder
    · simp only [Option.some.injEq, Prod.mk.injEq] at hholder
      exact advance_opened hstage hholder.2.2
  readers := by
    intro p r hr
    obtain ⟨r', hr', rfl⟩ := Option.map_eq_some_iff.mp hr
    refine ⟨List.mem_cons_self, ?_⟩
    have hconstructed := (h.readers p r' hr').2
    obtain ⟨q, call, rfl, -, -, rfl⟩ | ⟨q, call, outcome, rfl, -, rfl⟩ |
      ⟨q, call, stage, rfl, -, -, rfl⟩ := step_cases hstep
    · exact hconstructed
    · simp only
      split <;> simp [hconstructed]
    · exact hconstructed

/-- What holds of every reader holds of all after one has moved, if it holds of that one. -/
theorem forall_setReader {P : Reader Proc → Prop} {s : Shared Proc}
    (h : ∀ q x, s.readers q = some x → P x) (p : Proc) {r : Option (Reader Proc)}
    (hr : ∀ x, r = some x → P x) : ∀ q x, (s.setReader p r).readers q = some x → P x := by
  intro q x hx
  simp only [Shared.setReader, Function.update_apply] at hx
  split at hx
  · exact hr x hx
  · exact h q x hx

/-- A step of a reader, which the writers do not notice. -/
theorem Coherent.setReader {start : Reading} {s : Shared Proc} (h : Coherent start s) (p : Proc)
    {r : Option (Reader Proc)}
    (hr : ∀ x, r = some x → s.completed ∈ x.moments ∧ s.log.constructed ≠ []) :
    Coherent start (s.setReader p r) where
  represents := h.represents
  rewriting := h.rewriting
  readers := forall_setReader h.readers p hr

theorem Coherent.moveReader {start : Reading} {s : Shared Proc} (h : Coherent start s) {p : Proc}
    {r r' : Reader Proc} (hr : s.readers p = some r) (hmoments : r'.moments = r.moments) :
    Coherent start (s.setReader p (some r')) := by
  refine h.setReader p ?_
  rintro _ ⟨⟩
  rw [hmoments]
  exact h.readers p r hr

variable {codec : Codec} {start : Reading} {s s' : Shared Proc} {e : SharedEvent Proc}

/-- All that can happen: a step of the writers, or one reader that is called, opens the file,
reads from it, or is through. -/
theorem sharedStep_cases (hstep : sharedStep codec s e = some s') :
    (∃ x log, e = .locked x ∧ step s.log x = some log ∧
      s' = ⟨log, s.completed ++ commits s.log x,
        fun p => (s.readers p).map (Reader.sees · (s.completed ++ commits s.log x))⟩) ∨
    (∃ p query, e = .query p query ∧ p ∈ s.log.constructed ∧
      s' = s.setReader p (some ⟨query, .called, [s.completed]⟩)) ∨
    (∃ p query moments, e = .openFile p ∧ s.readers p = some ⟨query, .called, moments⟩ ∧
      ((s.log.file = .absent ∧
        s' = s.setReader p (some ⟨query, .returned (.error .fileNotFoundError), moments⟩)) ∨
      (s.log.file ≠ .absent ∧
        s' = s.setReader p (some ⟨query, .reading [] false, moments⟩)))) ∨
    (∃ p n query got full moments, e = .readFile p n ∧
      s.readers p = some ⟨query, .reading got full, moments⟩ ∧
      s' = s.setReader p
        (some ⟨query, readStage codec query (codec.content s.log.file) got n, moments⟩)) ∨
    (∃ p, e = .leave p ∧ s' = s.setReader p none) := by
  cases e with
  | locked x =>
    rw [sharedStep, Option.ite_none_right_eq_some] at hstep
    obtain ⟨log, hlog, rfl⟩ := Option.map_eq_some_iff.mp hstep.2
    exact .inl ⟨x, log, rfl, hlog, rfl⟩
  | query p query =>
    rw [sharedStep, Option.ite_none_right_eq_some] at hstep
    obtain ⟨⟨hp, -⟩, hs'⟩ := hstep
    exact .inr (.inl ⟨p, query, rfl, hp, (Option.some.inj hs').symm⟩)
  | openFile p =>
    rcases hr : s.readers p with _ | ⟨query, _ | _ | _, moments⟩ <;>
      simp only [sharedStep, hr, reduceCtorEq] at hstep
    refine .inr (.inr (.inl ⟨p, query, moments, rfl, hr, ?_⟩))
    cases hfile : s.log.file with
    | absent =>
      rw [hfile] at hstep
      exact .inl ⟨rfl, (Option.some.inj hstep).symm⟩
    | truncated =>
      rw [hfile] at hstep
      exact .inr ⟨by simp, (Option.some.inj hstep).symm⟩
    | document j =>
      rw [hfile] at hstep
      exact .inr ⟨by simp, (Option.some.inj hstep).symm⟩
  | readFile p n =>
    rcases hr : s.readers p with _ | ⟨query, _ | ⟨got, full⟩ | _, moments⟩ <;>
      simp only [sharedStep, hr, reduceCtorEq] at hstep
    exact .inr (.inr (.inr (.inl
      ⟨p, n, query, got, full, moments, rfl, hr, (Option.some.inj hstep).symm⟩)))
  | leave p =>
    rcases hr : s.readers p with _ | ⟨query, _ | _ | _, moments⟩ <;>
      simp only [sharedStep, hr, reduceCtorEq] at hstep
    exact .inr (.inr (.inr (.inr ⟨p, rfl, (Option.some.inj hstep).symm⟩)))

theorem Coherent.step (h : Coherent start s) (hstep : sharedStep codec s e = some s') :
    Coherent start s' := by
  obtain ⟨x, log, rfl, hlog, rfl⟩ | ⟨p, query, rfl, hp, rfl⟩ |
    ⟨p, query, moments, rfl, hr, ⟨-, rfl⟩ | ⟨-, rfl⟩⟩ |
    ⟨p, n, query, got, full, moments, rfl, hr, rfl⟩ | ⟨p, rfl, rfl⟩ := sharedStep_cases hstep
  · exact h.locked hlog
  · refine h.setReader p ?_
    rintro _ ⟨⟩
    exact ⟨List.mem_singleton_self _, List.ne_nil_of_mem hp⟩
  · exact h.moveReader hr rfl
  · exact h.moveReader hr rfl
  · exact h.moveReader hr rfl
  · exact h.setReader p (by simp)

omit [DecidableEq Proc] in
theorem coherent_initial (file : File) : Coherent file.log (Shared.initial Proc file) where
  represents := represents_initial file
  rewriting := by simp [Shared.initial, ErrorLog.initial]
  readers := by simp [Shared.initial]

/-! ## What the readers return -/

/-- Every reader that has returned has returned a log of its time. -/
def AllWhole (start : Reading) (s : Shared Proc) : Prop :=
  ∀ p r, s.readers p = some r → r.Whole start

/-- What a reader has got or returned is a log of its time. -/
structure Reader.Sound (codec : Codec) (start : Reading) (r : Reader Proc) : Prop where
  got : ∀ got, r.stage = .reading got true →
    ∃ calls ∈ r.moments, (codec.decode got >>= load) = replay start calls
  whole : r.Whole start

omit [DecidableEq Proc] in
theorem Reader.Sound.sees {r : Reader Proc} (h : r.Sound codec start)
    (completed : List (Proc × Call)) : (r.sees completed).Sound codec start where
  got got hgot := by
    obtain ⟨calls, hcalls, hload⟩ := h.got got hgot
    exact ⟨calls, List.mem_cons_of_mem _ hcalls, hload⟩
  whole outcome hreturned := by
    obtain ⟨calls, hcalls, hanswer⟩ := h.whole outcome hreturned
    exact ⟨calls, List.mem_cons_of_mem _ hcalls, hanswer⟩

omit [DecidableEq Proc] in
/-- At the start of a load nothing has been got. -/
theorem sound_started {r : Reader Proc} (h : r.stage = .called ∨ r.stage = .reading [] false) :
    r.Sound codec start where
  got := by
    intro got hgot
    rw [hgot] at h
    simp at h
  whole := by
    intro outcome hreturned
    rw [hreturned] at h
    simp at h

omit [DecidableEq Proc] in
/-- All that a document in the file holds has been got: it is the log of this moment. -/
theorem Coherent.load_of_all (h : Coherent start s) (hback : codec.ReadsBack s.log.file)
    (hconstructed : s.log.constructed ≠ []) {got : Bytes}
    (hcontinues : codec.Continues got s.log.file)
    (hall : (codec.content s.log.file).length ≤ got.length) :
    (codec.decode got >>= load) = replay start s.completed := by
  have hread := h.read hconstructed
  cases hfile : s.log.file with
  | absent =>
    rw [hfile] at hcontinues
    exact hcontinues.elim
  | truncated =>
    rw [hfile] at hcontinues
    exact hcontinues.elim
  | document j =>
    rw [hfile] at hcontinues hall hback hread
    rw [hcontinues.eq_of_length_le hall]
    exact hback.trans (hread (by simp))

omit [DecidableEq Proc] in
/-- A `read()` that tears nothing apart. -/
theorem sound_readStage (hstart : ∃ log, start = .ok log) (h : Coherent start s)
    (hback : codec.ReadsBack s.log.file) {p : Proc} {query : Query} {got : Bytes} {full : Bool}
    {moments : List (List (Proc × Call))}
    (hr : s.readers p = some ⟨query, .reading got full, moments⟩)
    (hsound : Reader.Sound codec start ⟨query, .reading got full, moments⟩)
    (htears : ¬ Tears codec s.log.file (.reading got full)) (n : Nat) :
    Reader.Sound codec start
      ⟨query, readStage codec query (codec.content s.log.file) got n, moments⟩ := by
  obtain ⟨hmoment, hconstructed⟩ := h.readers p _ hr
  have hmeets : codec.Continues got s.log.file ∨
      (full = true ∧ (codec.content s.log.file).length ≤ got.length) := by
    by_contra hnot
    exact htears (not_or.mp hnot)
  rw [readStage]
  split
  · next hend =>
    -- nothing more: what has been got is the document of now, or that of an earlier moment
    have hall := nextChunk_eq_nil.mp hend
    obtain ⟨calls, hcalls, hload⟩ : ∃ calls ∈ moments,
        (codec.decode got >>= load) = replay start calls := by
      rcases hmeets with hcontinues | ⟨rfl, -⟩
      · exact ⟨s.completed, hmoment, h.load_of_all hback hconstructed hcontinues hall⟩
      · exact hsound.got got rfl
    obtain ⟨log, hlog, -⟩ := entries_replay start calls (.inl hstart)
    refine ⟨by simp, ?_⟩
    rintro outcome ⟨⟩
    refine ⟨calls, hcalls, log, hlog, ?_⟩
    rw [hload, hlog]
    rfl
  · next hmore =>
    have hcontinues : codec.Continues got s.log.file :=
      hmeets.resolve_right fun hfull => hmore (nextChunk_eq_nil.mpr hfull.2)
    refine ⟨?_, by rintro outcome ⟨⟩⟩
    intro got' hgot'
    obtain ⟨rfl, hall⟩ := ReadStage.reading.inj hgot'
    refine ⟨s.completed, hmoment, h.load_of_all hback hconstructed ?_ (of_decide_eq_true hall)⟩
    cases hfile : s.log.file with
    | absent =>
      rw [hfile] at hcontinues
      exact hcontinues.elim
    | truncated =>
      rw [hfile] at hcontinues
      exact hcontinues.elim
    | document j =>
      rw [hfile] at hcontinues
      exact append_nextChunk_prefix hcontinues n

/-- A step that is not torn lets nothing be got or returned but whole logs. -/
theorem sound_step (hstart : ∃ log, start = .ok log) (h : Coherent start s)
    (hback : codec.ReadsBack s.log.file)
    (hsound : ∀ p r, s.readers p = some r → r.Sound codec start) (htorn : ¬ Torn codec s e)
    (hstep : sharedStep codec s e = some s') :
    ∀ p r, s'.readers p = some r → r.Sound codec start := by
  obtain ⟨x, log, rfl, hlog, rfl⟩ | ⟨p, query, rfl, hp, rfl⟩ |
    ⟨p, query, moments, rfl, hr, ⟨habsent, rfl⟩ | ⟨-, rfl⟩⟩ |
    ⟨p, n, query, got, full, moments, rfl, hr, rfl⟩ | ⟨p, rfl, rfl⟩ := sharedStep_cases hstep
  · intro p r hr
    obtain ⟨r', hr', rfl⟩ := Option.map_eq_some_iff.mp hr
    exact (hsound p r' hr').sees _
  · refine forall_setReader hsound p ?_
    rintro _ ⟨⟩
    exact sound_started (.inl rfl)
  · exact (h.represents.present (h.readers p _ hr).2 habsent).elim
  · refine forall_setReader hsound p ?_
    rintro _ ⟨⟩
    exact sound_started (.inr rfl)
  · refine forall_setReader hsound p ?_
    rintro _ ⟨⟩
    exact sound_readStage hstart h hback hr (hsound p _ hr) (fun htears => htorn ⟨_, hr, htears⟩) n
  · exact forall_setReader hsound p (by simp)

/-- **Whole logs.** In every interleaving of queries and locked calls, from a log or no file, in
which no `read()` is torn: everything that queries return, in every state of the run, is the
answer on a log that was complete at some moment since the call. -/
theorem reads_whole (codec : Codec) (file : File) (hfile : ∃ log, file.log = .ok log)
    (events : List (SharedEvent Proc))
    (hback : ∀ t ∈ states (sharedStep codec) (Shared.initial Proc file) events,
      codec.ReadsBack t.log.file)
    (hwhole : Steps (sharedStep codec) (fun t e => ¬ Torn codec t e) (Shared.initial Proc file)
      events) :
    ∀ t ∈ states (sharedStep codec) (Shared.initial Proc file) events, AllWhole file.log t := by
  have hsteps := (steps_of_states_start hback).and hwhole
  intro t ht
  have h : Coherent file.log t ∧ ∀ p r, t.readers p = some r → r.Sound codec file.log := by
    refine states_induction (fun t => Coherent file.log t ∧
      ∀ p r, t.readers p = some r → r.Sound codec file.log) ?_ ?_ hsteps t ht
    · exact ⟨coherent_initial file, by simp [Shared.initial]⟩
    · rintro t e t' ⟨hcoherent, hsound⟩ ⟨hback, htorn⟩ hstep
      exact ⟨hcoherent.step hstep, sound_step hfile hcoherent hback hsound htorn hstep⟩
  exact fun p r hr => (h.2 p r hr).whole

/-! ## Two processes -/

/-- The log after `add_failure("evm", "test_revert")`. -/
def revertLog : ErrorLogModel := ⟨Dict.empty.extend .evm ["test_revert"], .empty, []⟩

def defaultText : Bytes :=
  utf8 "\x7b\n    \"failures\": \x7b\x7d,\n    \"errors\": \x7b\x7d,\n    \"comments\": []\n\x7d"

def revertText : Bytes :=
  utf8 ("\x7b\n    \"failures\": \x7b\n        \"evm\": [\n            \"test_revert\"\n        ]\n" ++
    "    \x7d,\n    \"errors\": \x7b\x7d,\n    \"comments\": []\n\x7d")

def sampleDecode (text : Bytes) : Except PyError Json :=
  if text = defaultText then .ok (dump .default)
  else if text = revertText then .ok (dump revertLog)
  else .error .jsonDecodeError

/-- The texts of the two logs; no other text is loaded here. -/
def sampleCodec : Codec where
  encode j := match load j with
    | .ok log => if log.failures.items.isEmpty then defaultText else revertText
    | .error _ => []
  decode := sampleDecode

theorem readsBack_default : sampleCodec.ReadsBack (.document (dump .default)) := by
  show (sampleDecode defaultText >>= load) = _
  rw [sampleDecode, if_pos rfl]
  rfl

theorem readsBack_revert : sampleCodec.ReadsBack (.document (dump revertLog)) := by
  show (sampleDecode revertText >>= load) = _
  rw [sampleDecode, if_neg (by decide), if_pos rfl]
  rfl

/-- The second process asks `has_logs` around a failure that the first one adds. -/
def overlapping (first second third : List (SharedEvent Bool)) : List (SharedEvent Bool) :=
  ([.acquire false .construct, .advance false, .advance false, .advance false,
    .acquire true .construct, .advance true, .advance true].map .locked) ++
  [.query true .hasLogs, .openFile true] ++ first ++
  ([.acquire false (.update (.addFailure .evm "test_revert")), .advance false,
    .advance false].map .locked) ++ second ++ [.locked (.advance false)] ++ third

/-- All is got before the file is truncated, and the end is met then. -/
def wholeRead : List (SharedEvent Bool) :=
  overlapping [.readFile true 8191] [.readFile true 8191] []

theorem reads_whole_overlapping :
    (∀ t ∈ states (sharedStep sampleCodec) (Shared.initial Bool .absent) wholeRead,
      AllWhole (.ok .default) t) ∧
    ∃ s, run (sharedStep sampleCodec) (Shared.initial Bool .absent) wholeRead = some s ∧
      ∃ r, s.readers true = some r ∧ r.stage = .returned (.ok (.flag false)) := by
  refine ⟨?_, _, rfl, _, rfl, rfl⟩
  have hfiles : (states (sharedStep sampleCodec) (Shared.initial Bool .absent) wholeRead).map
      (fun t => t.log.file) = [.absent, .absent, .truncated, .document (dump .default),
        .document (dump .default), .document (dump .default), .document (dump .default),
        .document (dump .default), .document (dump .default), .document (dump .default),
        .document (dump .default), .document (dump .default), .document (dump .default),
        .truncated, .truncated, .document (dump revertLog)] := rfl
  refine reads_whole sampleCodec .absent ⟨.default, rfl⟩ wholeRead ?_ (by decide)
  rw [← List.forall_mem_map, hfiles]
  simp only [List.forall_mem_cons, readsBack_default, readsBack_revert]
  simp [Codec.ReadsBack]

set_option maxRecDepth 2000 in
/-- It meets the file that has been truncated; or it has got the document of before, and goes on
with the end of the longer one of after. -/
theorem query_torn :
    (∃ s, run (sharedStep sampleCodec) (Shared.initial Bool .absent)
        (overlapping [] [.readFile true 8191] []) = some s ∧
      ∃ r, s.readers true = some r ∧ r.stage = .returned (.error .jsonDecodeError)) ∧
    ∃ s, run (sharedStep sampleCodec) (Shared.initial Bool .absent)
        (overlapping [.readFile true 8191] [] [.readFile true 8191, .readFile true 8191]) =
          some s ∧
      ∃ r, s.readers true = some r ∧ r.stage = .returned (.error .jsonDecodeError) := by
  exact ⟨⟨_, rfl, _, rfl, rfl⟩, _, rfl, _, rfl, rfl⟩

end NeonTests.ErrorLog
