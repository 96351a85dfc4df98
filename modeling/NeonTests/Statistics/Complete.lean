import NeonTests.Statistics.Definitions

/-!
# Locust statistics — one event a call

Every call works on its own entry of the buffer, whatever the others do meanwhile. It is
served if its response can be measured, or if its exception is an `Exception` that the
error line can show.

* `Frame` — a step leaves the other calls alone;
* `Holds` — what is in the buffer and was fired for a call, by its phase;
* `Inv.step` — every step keeps that for every call;
* `served_iff` — which endings of a function are served;
* `complete_iff` — so for whole runs, in any interleaving.
-/

namespace NeonTests.Statistics

open Runs

variable {Id R E A T : Type} [DecidableEq Id] {rt : Runtime R E A T}
  {s s' : State Id R E A T} {taskId : Id}

-- ---------------------------------------------------------------------------
-- Other calls
-- ---------------------------------------------------------------------------

/-- The events a call fired. -/
def State.firedBy (s : State Id R E A T) (taskId : Id) : List (RequestMeta R E T) :=
  (s.fired.filter fun x => x.1 = taskId).map Prod.snd

/-- The calls but one are as they were. -/
structure Frame (taskId : Id) (s s' : State Id R E A T) : Prop where
  phase : ∀ k, k ≠ taskId → s'.phase k = s.phase k
  entry : ∀ k, k ≠ taskId → s'.buffer.get? k = s.buffer.get? k
  fired : ∀ k, k ≠ taskId → s'.firedBy k = s.firedBy k

theorem frame_setPhase (s : State Id R E A T) (taskId : Id) (phase : Phase R E A) :
    Frame taskId s (s.setPhase taskId phase) where
  phase _ hk := Function.update_of_ne hk _ _
  entry _ _ := rfl
  fired _ _ := rfl

theorem firedBy_append (l : List (Id × RequestMeta R E T)) (x : Id × RequestMeta R E T) (k : Id) :
    ((l ++ [x]).filter fun x => x.1 = k).map Prod.snd =
      (l.filter fun x => x.1 = k).map Prod.snd ++ if x.1 = k then [x.2] else [] := by
  rw [List.filter_append, List.map_append]
  congr 1
  by_cases h : x.1 = k
  · rw [List.filter_cons_of_pos (by simpa using h), if_pos h]
    rfl
  · rw [List.filter_cons_of_neg (by simpa using h), if_neg h]
    rfl

-- ---------------------------------------------------------------------------
-- A call by itself
-- ---------------------------------------------------------------------------

def Outcome.response? : Outcome R E → Option R
  | .returned response => some response
  | .raised _ => none

def Outcome.exception? : Outcome R E → Option E
  | .returned _ => none
  | .raised err => some err

def Update.response? : Update R E → Option R
  | .success response _ => some response
  | .failure _ => none

def Update.exception? : Update R E → Option E
  | .success _ _ => none
  | .failure err => some err

/-- The entry of a call whose function is not done. -/
def Pending (rt : Runtime R E A T) (call : Call A) (entry : Option (Entry R E T)) : Prop :=
  ∃ params, entry = some params ∧ params.requestType = call.requestType rt ∧
    params.response = none ∧ params.exception = none

/-- The one event of a call. -/
def Reports (rt : Runtime R E A T) (call : Call A) (event : Update R E)
    (fired : List (RequestMeta R E T)) : Prop :=
  ∃ requestMeta, fired = [requestMeta] ∧ requestMeta.requestType = call.requestType rt ∧
    requestMeta.response = event.response? ∧ requestMeta.exception = event.exception?

/-- What there is of a call: its entry, the one there was before it, its events. -/
def Holds (rt : Runtime R E A T) (before entry : Option (Entry R E T))
    (fired : List (RequestMeta R E T)) : Phase R E A → Prop
  | .absent => entry = before ∧ fired = []
  | .inFunc call => before = none ∧ Pending rt call entry ∧ fired = []
  | .tried call outcome event =>
    tryFunc rt outcome = .ok event ∧ before = none ∧ Pending rt call entry ∧ fired = []
  | .reported call outcome event =>
    tryFunc rt outcome = .ok event ∧ before = none ∧ entry = none ∧ Reports rt call event fired
  | .ended call outcome result => before = none ∧
    match tryFunc rt outcome with
    | .ok event => entry = none ∧ Reports rt call event fired ∧ result = answer rt call.args event
    | .error err => Pending rt call entry ∧ fired = [] ∧ result = .raised err

def Inv (rt : Runtime R E A T) (buffer : Dict Id (Entry R E T)) (s : State Id R E A T) : Prop :=
  ∀ k, Holds rt (buffer.get? k) (s.buffer.get? k) (s.firedBy k) (s.phase k)

variable {buffer : Dict Id (Entry R E T)}

theorem Inv.framed (hinv : Inv rt buffer s) (hframe : Frame taskId s s')
    (hown : Holds rt (buffer.get? taskId) (s'.buffer.get? taskId) (s'.firedBy taskId)
      (s'.phase taskId)) : Inv rt buffer s' := by
  intro k
  rcases eq_or_ne k taskId with rfl | hk
  · exact hown
  · rw [hframe.phase k hk, hframe.entry k hk, hframe.fired k hk]
    exact hinv k

/-- The entry is there, and the update sets the type of the event. -/
theorem reportEvent_eq (rt : Runtime R E A T) {entries : Dict Id (Entry R E T)} {params : Entry R E T}
    (h : entries.get? taskId = some params) (event : Update R E) (now : T) :
    ∃ fired, reportEvent rt entries taskId event now = .ok fired ∧
      fired.buffer = (entries.set taskId (params.update event)).erase taskId ∧
      fired.requestMeta.requestType = params.requestType ∧
      fired.requestMeta.response = (params.update event).response ∧
      fired.requestMeta.exception = (params.update event).exception ∧ fired.logged = .ok () := by
  have hset : (entries.set taskId (params.update event)).get? taskId =
      some (params.update event) := by
    rw [Dict.get?_set, if_pos rfl]
  rw [reportEvent, h]
  dsimp only
  rw [fireEvent, hset]
  refine ⟨_, rfl, rfl, ?_, rfl, rfl, ?_⟩ <;> rcases event with _ | _ <;> rfl

theorem update_pending {params : Entry R E T} (hresponse : params.response = none)
    (hexception : params.exception = none) (event : Update R E) :
    (params.update event).response = event.response? ∧
      (params.update event).exception = event.exception? := by
  rcases event with ⟨response, _⟩ | err
  · exact ⟨rfl, hexception⟩
  · exact ⟨hresponse, rfl⟩

theorem Inv.began {call : Call A} {startTime perf : T} (hinv : Inv rt buffer s)
    (h : step rt s (.begin taskId call startTime perf) = some s') : Inv rt buffer s' := by
  rw [step] at h
  split at h
  · next hphase hentry =>
    obtain rfl := Option.some.inj h
    have hold := hinv taskId
    rw [hphase, hentry] at hold
    refine hinv.framed (show Frame taskId s _ from ⟨?_, ?_, fun _ _ => rfl⟩) ?_
    · exact fun _ hk => Function.update_of_ne hk _ _
    · exact fun k hk => (Dict.get?_set _ _ _ _).trans (if_neg hk.symm)
    · show Holds rt _ ((s.buffer.set _ _).get? taskId) _ (Function.update s.phase taskId _ taskId)
      rw [Dict.get?_set, if_pos rfl, Function.update_self]
      exact ⟨hold.1.symm, ⟨_, rfl, rfl, rfl, rfl⟩, hold.2⟩
  · cases h

theorem Inv.finished {outcome : Outcome R E} (hinv : Inv rt buffer s)
    (h : step rt s (.finish taskId outcome) = some s') : Inv rt buffer s' := by
  rw [step] at h
  split at h
  · next call hphase =>
    have hold := hinv taskId
    rw [hphase] at hold
    rcases htry : tryFunc rt outcome with err | event <;> rw [htry] at h
    · obtain rfl := Option.some.inj h
      refine hinv.framed (frame_setPhase s taskId _) ?_
      show Holds rt _ (s.buffer.get? taskId) (s.firedBy taskId) (Function.update s.phase taskId _ taskId)
      rw [Function.update_self, Holds, htry]
      exact ⟨hold.1, hold.2.1, hold.2.2, rfl⟩
    · obtain rfl := Option.some.inj h
      refine hinv.framed (frame_setPhase s taskId _) ?_
      show Holds rt _ (s.buffer.get? taskId) (s.firedBy taskId) (Function.update s.phase taskId _ taskId)
      rw [Function.update_self]
      exact ⟨htry, hold⟩
  · cases h

theorem Inv.reported {now : T} (hinv : Inv rt buffer s)
    (h : step rt s (.report taskId now) = some s') : Inv rt buffer s' := by
  rw [step] at h
  split at h
  · next call outcome event hphase =>
    have hold := hinv taskId
    rw [hphase] at hold
    obtain ⟨htry, hbefore, ⟨params, hentry, htype, hresponse, hexception⟩, hfired⟩ := hold
    obtain ⟨fired, hreport, hbuffer, hmeta, hmetaResponse, hmetaException, hlogged⟩ :=
      reportEvent_eq rt hentry event now
    obtain ⟨hown, hown'⟩ := update_pending hresponse hexception event
    rw [hreport] at h
    dsimp only at h
    rw [hlogged] at h
    obtain rfl := Option.some.inj h
    refine hinv.framed (show Frame taskId s _ from ⟨?_, ?_, ?_⟩) ?_
    · exact fun _ hk => Function.update_of_ne hk _ _
    · intro k hk
      show fired.buffer.get? k = _
      rw [hbuffer, Dict.get?_erase, if_neg hk.symm, Dict.get?_set, if_neg hk.symm]
    · intro k hk
      refine (firedBy_append _ _ k).trans ?_
      rw [if_neg hk.symm, List.append_nil]
      rfl
    · have hone : ((s.fired ++ [(taskId, fired.requestMeta)]).filter
          fun x => x.1 = taskId).map Prod.snd = [fired.requestMeta] := by
        rw [firedBy_append, if_pos rfl]
        exact congrArg (· ++ [fired.requestMeta]) hfired
      show Holds rt _ (fired.buffer.get? taskId)
        (((s.fired ++ [(taskId, fired.requestMeta)]).filter fun x => x.1 = taskId).map Prod.snd)
        (Function.update s.phase taskId _ taskId)
      rw [hone, hbuffer, Dict.get?_erase, if_pos rfl, Function.update_self]
      exact ⟨htry, hbefore, rfl, fired.requestMeta, rfl, hmeta.trans htype,
        hmetaResponse.trans hown, hmetaException.trans hown'⟩
  · cases h

theorem Inv.left (hinv : Inv rt buffer s) (h : step rt s (.leave taskId) = some s') :
    Inv rt buffer s' := by
  rw [step] at h
  split at h
  · next call outcome event hphase =>
    obtain rfl := Option.some.inj h
    have hold := hinv taskId
    rw [hphase] at hold
    obtain ⟨htry, hbefore, hentry, hreports⟩ := hold
    refine hinv.framed (frame_setPhase s taskId _) ?_
    show Holds rt _ (s.buffer.get? taskId) (s.firedBy taskId) (Function.update s.phase taskId _ taskId)
    rw [Function.update_self, Holds, htry]
    exact ⟨hbefore, hentry, hreports, rfl⟩
  · cases h

/-- **One step.** -/
theorem Inv.step {e : Event Id R E A T} (hinv : Inv rt buffer s) (h : step rt s e = some s') :
    Inv rt buffer s' := by
  rcases e with ⟨taskId, call, startTime, perf⟩ | ⟨taskId, outcome⟩ | ⟨taskId, now⟩ | taskId
  · exact hinv.began h
  · exact hinv.finished h
  · exact hinv.reported h
  · exact hinv.left h

theorem inv_initial (rt : Runtime R E A T) (buffer : Dict Id (Entry R E T)) :
    Inv rt buffer (initial buffer) :=
  fun _ => ⟨rfl, rfl⟩

/-- **A run.** -/
theorem inv_run {events : List (Event Id R E A T)}
    (hrun : run (Statistics.step rt) (initial buffer) events = some s) : Inv rt buffer s :=
  run_induction (fun _ t => Inv rt buffer t) (inv_initial rt buffer)
    (fun _ _ _ _ hinv _ h => hinv.step h) steps_true hrun

-- ---------------------------------------------------------------------------
-- Served calls
-- ---------------------------------------------------------------------------

/-- One event, with the type of the call and what its function ended with; the caller gets
the same; the entry is gone. -/
structure Served (rt : Runtime R E A T) (s : State Id R E A T) (taskId : Id) (call : Call A)
    (outcome result : Outcome R E) : Prop where
  event : ∃ requestMeta, s.firedBy taskId = [requestMeta] ∧
    requestMeta.requestType = call.requestType rt ∧
    requestMeta.response = outcome.response? ∧ requestMeta.exception = outcome.exception?
  unchanged : result = outcome
  removed : s.buffer.get? taskId = none

/-- The response can be measured; the exception is an `Exception`, and the error line can
show it. -/
def Good (rt : Runtime R E A T) (call : Call A) : Outcome R E → Prop
  | .returned response => ∃ responseLength, rt.getsizeof response = .ok responseLength
  | .raised err => rt.isException err = true ∧
    ∀ other, rt.formatting err call.args = some other → other = err

/-- The `try` statement makes an event of the ending as it was, and so does what follows. -/
def Faithful (rt : Runtime R E A T) (call : Call A) (outcome : Outcome R E)
    (event : Update R E) : Prop :=
  event.response? = outcome.response? ∧ event.exception? = outcome.exception? ∧
    answer rt call.args event = outcome

theorem caught_eq_ok {err : E} {event : Update R E} :
    caught rt err = .ok event ↔ rt.isException err = true ∧ event = .failure err := by
  unfold caught
  split
  · next h => simp [h, eq_comm]
  · next h => simp [h]

theorem good_iff {call : Call A} {outcome : Outcome R E} :
    Good rt call outcome ↔
      ∃ event, tryFunc rt outcome = .ok event ∧ Faithful rt call outcome event := by
  rcases outcome with response | err
  · constructor
    · rintro ⟨responseLength, hsize⟩
      exact ⟨.success response responseLength, by rw [tryFunc, hsize], rfl, rfl, rfl⟩
    · rintro ⟨event, htry, hresponse, _⟩
      rw [tryFunc] at htry
      rcases hsize : rt.getsizeof response with err | responseLength <;> rw [hsize] at htry
      · -- the failure of the measurement is reported in place of the response
        obtain ⟨_, rfl⟩ := caught_eq_ok.mp htry
        cases hresponse
      · exact ⟨responseLength, hsize⟩
  · constructor
    · rintro ⟨hexception, hformat⟩
      refine ⟨.failure err, caught_eq_ok.mpr ⟨hexception, rfl⟩, rfl, rfl, ?_⟩
      rw [answer]
      rcases hother : rt.formatting err call.args with _ | other
      · rfl
      · rw [hformat other hother]
    · rintro ⟨event, htry, _, _, hanswer⟩
      obtain ⟨hexception, rfl⟩ := caught_eq_ok.mp htry
      refine ⟨hexception, ?_⟩
      intro other hother
      rw [answer, hother] at hanswer
      exact (Outcome.raised.inj hanswer)

/-- **A call that has ended.** It was served exactly if its function ended well. -/
theorem served_iff {call : Call A} {outcome result : Outcome R E} (hinv : Inv rt buffer s)
    (hended : s.phase taskId = .ended call outcome result) :
    Served rt s taskId call outcome result ↔ Good rt call outcome := by
  have hold := hinv taskId
  rw [hended] at hold
  obtain ⟨_, hold⟩ := hold
  rw [good_iff]
  rcases htry : tryFunc rt outcome with err | event <;> rw [htry] at hold
  · obtain ⟨_, hfired, _⟩ := hold
    constructor
    · intro h
      obtain ⟨requestMeta, hone, _⟩ := h.event
      rw [hfired] at hone
      cases hone
    · rintro ⟨event, hevent, _⟩
      cases hevent
  · obtain ⟨hentry, ⟨requestMeta, hone, htype, hresponse, hexception⟩, hresult⟩ := hold
    constructor
    · intro h
      obtain ⟨requestMeta', hone', _, hresponse', hexception'⟩ := h.event
      rw [hone, List.singleton_inj] at hone'
      subst hone'
      exact ⟨event, rfl, hresponse.symm.trans hresponse', hexception.symm.trans hexception',
        hresult.symm.trans h.unchanged⟩
    · rintro ⟨event', hevent, hresponse', hexception', hanswer⟩
      obtain rfl := Except.ok.inj hevent
      exact ⟨⟨requestMeta, hone, htype, hresponse.trans hresponse', hexception.trans hexception'⟩,
        hresult.trans hanswer, hentry⟩

-- ---------------------------------------------------------------------------
-- Whole runs
-- ---------------------------------------------------------------------------

/-- What the statistics are to be: every call that has ended was served, no event is of
another origin, and once all calls have ended the buffer is as it was before them. -/
structure Complete (rt : Runtime R E A T) (buffer : Dict Id (Entry R E T))
    (s : State Id R E A T) : Prop where
  served : ∀ taskId call outcome result, s.phase taskId = .ended call outcome result →
    Served rt s taskId call outcome result
  own : ∀ x ∈ s.fired, s.phase x.1 ≠ .absent
  restored : (∀ taskId, s.phase taskId = .absent ∨
      ∃ call outcome result, s.phase taskId = .ended call outcome result) →
    ∀ taskId, s.buffer.get? taskId = buffer.get? taskId

theorem fired_own (hinv : Inv rt buffer s) : ∀ x ∈ s.fired, s.phase x.1 ≠ .absent := by
  intro x hx habsent
  have hold := hinv x.1
  rw [habsent] at hold
  have hmem : x.2 ∈ s.firedBy x.1 :=
    List.mem_map.mpr ⟨x, List.mem_filter.mpr ⟨hx, decide_eq_true rfl⟩, rfl⟩
  rw [hold.2] at hmem
  cases hmem

/-- **The statistics.** In every run, however the calls nest and interleave, they are
complete exactly if the functions that have ended have ended well. -/
theorem complete_iff (rt : Runtime R E A T) (buffer : Dict Id (Entry R E T))
    (events : List (Event Id R E A T)) (s : State Id R E A T)
    (hrun : run (Statistics.step rt) (initial buffer) events = some s) :
    Complete rt buffer s ↔ ∀ taskId call outcome result,
      s.phase taskId = .ended call outcome result → Good rt call outcome := by
  have hinv := inv_run hrun
  constructor
  · intro h taskId call outcome result hended
    exact (served_iff hinv hended).mp (h.served taskId call outcome result hended)
  · intro hgood
    refine ⟨?_, fired_own hinv, ?_⟩
    · intro taskId call outcome result hended
      exact (served_iff hinv hended).mpr (hgood taskId call outcome result hended)
    · intro hall taskId
      have hold := hinv taskId
      rcases hall taskId with habsent | ⟨call, outcome, result, hended⟩
      · rw [habsent] at hold
        exact hold.1
      · have hserved := (served_iff hinv hended).mpr (hgood taskId call outcome result hended)
        rw [hended] at hold
        rw [hserved.removed, hold.1]

-- ---------------------------------------------------------------------------
-- A nested call, and a user that is stopped
-- ---------------------------------------------------------------------------

inductive SampleError
  | timeExhausted
  | greenletExit
  | keyError
  deriving DecidableEq

/-- Responses that can be measured, exceptions that can be shown. -/
def sampleRuntime : Runtime String SampleError Unit Nat where
  isException err := decide (err ≠ .greenletExit)
  title := Python.asciiTitle
  getsizeof response := .ok (49 + response.length)
  formatting _ _ := none
  keyError := .keyError
  elapsed start stop := (stop - start) * 1000

def sendTokens : Call Unit := ⟨none, "send_tokens", ()⟩
def directSwap : Call Unit := ⟨some "Direct swap", "task_swap_direct", ()⟩

example : sendTokens.requestType sampleRuntime = "Send Tokens" := by decide

/-- A swap whose transfer runs into a timeout, and so does the swap. -/
def nestedCalls : List (Event Nat String SampleError Unit Nat) :=
  [.begin 0 directSwap 0 0, .begin 1 sendTokens 1 1, .finish 1 (.raised .timeExhausted),
    .report 1 5, .leave 1, .finish 0 (.raised .timeExhausted), .report 0 6, .leave 0]

theorem complete_nestedCalls : ∃ s,
    run (step sampleRuntime) (initial Dict.empty) nestedCalls = some s ∧
    Complete sampleRuntime Dict.empty s := by
  refine ⟨_, rfl, (complete_iff sampleRuntime Dict.empty nestedCalls _ rfl).mpr ?_⟩
  intro taskId call outcome result hended
  rcases taskId with _ | _ | n
  · obtain ⟨rfl, rfl, rfl⟩ := Phase.ended.inj hended
    exact ⟨rfl, fun other hother => by cases hother⟩
  · obtain ⟨rfl, rfl, rfl⟩ := Phase.ended.inj hended
    exact ⟨rfl, fun other hother => by cases hother⟩
  · cases hended

/-- A user that is stopped during a call: no event, and the entry stays. -/
theorem stopped_not_complete : ∃ s,
    run (step sampleRuntime) (initial Dict.empty)
      [.begin 0 sendTokens 0 0, .finish 0 (.raised .greenletExit)] = some s ∧
    s.fired.length = 0 ∧ (s.buffer.get? 0).isSome ∧ ¬ Complete sampleRuntime Dict.empty s := by
  refine ⟨_, rfl, rfl, rfl, ?_⟩
  intro h
  have hserved := h.served 0 sendTokens (.raised .greenletExit) (.raised .greenletExit) rfl
  have hremoved := hserved.removed
  cases hremoved

end NeonTests.Statistics
