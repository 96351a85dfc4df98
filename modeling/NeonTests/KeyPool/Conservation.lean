import NeonTests.KeyPool.Definitions

/-!
# The OpenZeppelin runner — no key set is lost

A call of `run_oz_file` returns its key set unless the output of hardhat is not UTF-8:
then the exception is raised between `pop` and `append`.

* `Did` — all that an event can do;
* `Inv` — the key sets, held or free, are the prepared ones, and every file is somewhere;
* `Inv.conserved` — so there is a free set for every worker that is about to take one;
* `keys_conserved_iff` — it is so at every moment exactly if every output decodes.
-/

namespace NeonTests.KeyPool

open Endian Python Runs

variable {config : Config} {s s' : State} {e : Event}

-- ---------------------------------------------------------------------------
-- What an event can do
-- ---------------------------------------------------------------------------

inductive Did (config : Config) (s : State) : Event → State → Prop
  | dispatched {fileName rest} (htests : s.tests = fileName :: rest)
      (hidle : s.workers.length < config.jobs) :
      Did config s .dispatch
        { s with tests := rest, workers := s.workers ++ [⟨fileName, .started⟩] }
  | popped {i fileName keys rest} (hworker : s.workers[i]? = some ⟨fileName, .started⟩)
      (hkeys : s.keysEnv = keys :: rest) :
      Did config s (.pop i)
        { s.setPhase i fileName (.running keys (env config keys)) with
          keysEnv := rest
          ran := s.ran ++ [fileName] }
  | starved {i fileName} (hworker : s.workers[i]? = some ⟨fileName, .started⟩)
      (hkeys : s.keysEnv = []) :
      Did config s (.pop i) (s.finish i fileName (.error .indexError))
  | exited {i out timeInfo fileName keys env logs}
      (hworker : s.workers[i]? = some ⟨fileName, .running keys env⟩)
      (houtputs : outputs out = .ok (logs.stdout, logs.stderr)) :
      Did config s (.exit i out timeInfo) (s.setPhase i fileName (.finished keys logs))
  | lost {i out timeInfo fileName keys env err}
      (hworker : s.workers[i]? = some ⟨fileName, .running keys env⟩)
      (houtputs : outputs out = .error err) :
      Did config s (.exit i out timeInfo) (s.finish i fileName (.error err))
  | appended {i fileName keys logs}
      (hworker : s.workers[i]? = some ⟨fileName, .finished keys logs⟩) :
      Did config s (.append i)
        { s.setPhase i fileName (.logging logs) with keysEnv := s.keysEnv ++ [keys] }
  | written {i outcome fileName logs}
      (hworker : s.workers[i]? = some ⟨fileName, .logging logs⟩) :
      Did config s (.write i outcome) (s.finish i fileName outcome)

theorem step_did (h : step config s e = some s') : Did config s e s' := by
  rcases e with _ | i | ⟨i, out, timeInfo⟩ | i | ⟨i, outcome⟩ <;> rw [step] at h
  · rcases htests : s.tests with _ | ⟨fileName, rest⟩ <;> rw [htests] at h
    · cases h
    · dsimp only at h
      split at h
      · next hidle =>
        obtain rfl := Option.some.inj h
        exact .dispatched htests hidle
      · cases h
  · split at h
    · next fileName hworker =>
      rcases hkeys : s.keysEnv with _ | ⟨keys, rest⟩ <;> rw [hkeys] at h
      · obtain rfl := Option.some.inj h
        exact .starved hworker hkeys
      · obtain rfl := Option.some.inj h
        exact .popped hworker hkeys
    · cases h
  · split at h
    · next fileName keys env hworker =>
      rcases houtputs : outputs out with err | ⟨stdout, stderr⟩ <;> rw [houtputs] at h
      · obtain rfl := Option.some.inj h
        exact .lost hworker houtputs
      · obtain rfl := Option.some.inj h
        exact .exited hworker houtputs
    · cases h
  · split at h
    · next fileName keys logs hworker =>
      obtain rfl := Option.some.inj h
      exact .appended hworker
    · cases h
  · split at h
    · next fileName logs hworker =>
      obtain rfl := Option.some.inj h
      exact .written hworker
    · cases h

-- ---------------------------------------------------------------------------
-- The invariant
-- ---------------------------------------------------------------------------

/-- The key sets the workers hold. -/
def State.held (s : State) : List KeySet := s.workers.filterMap Worker.keys?

/-- The worker is past `keys_env.pop(0)`. -/
def Worker.hasRun (w : Worker) : Bool :=
  match w.phase with
  | .started => false
  | _ => true

structure Inv (config : Config) (keySets : List KeySet) (tests : List String) (s : State) :
    Prop where
  bounded : s.workers.length ≤ config.jobs
  keys : (s.held ++ s.keysEnv).Perm keySets
  files : (s.tests ++ s.workers.map Worker.fileName ++ s.ended.map Prod.fst).Perm tests
  ran : ((s.workers.filter Worker.hasRun).map Worker.fileName ++ s.ended.map Prod.fst).Perm s.ran

variable {keySets : List KeySet} {tests : List String} {i : Nat} {w w' : Worker}

theorem workers_perm {workers : List Worker} (h : workers[i]? = some w) :
    workers.Perm (w :: workers.eraseIdx i) := by
  obtain ⟨hi, rfl⟩ := List.getElem?_eq_some_iff.mp h
  exact (List.getElem_cons_eraseIdx_perm hi).symm

theorem workers_set_perm {workers : List Worker} (h : workers[i]? = some w) :
    (workers.set i w').Perm (w' :: workers.eraseIdx i) :=
  List.set_perm_cons_eraseIdx (List.getElem?_eq_some_iff.mp h).1 w'

/-- A worker goes on as `new`: as another, or not at all. -/
theorem Inv.replaced (hinv : Inv config keySets tests s) (hworker : s.workers[i]? = some w)
    (new : List Worker) (hworkers : s'.workers.Perm (new ++ s.workers.eraseIdx i))
    (hone : new.length ≤ 1) (htests : s'.tests = s.tests)
    (hkeys : (new.filterMap Worker.keys? ++ s'.keysEnv).Perm ([w].filterMap Worker.keys? ++ s.keysEnv))
    (hfiles : (new.map Worker.fileName ++ s'.ended.map Prod.fst).Perm
      ([w].map Worker.fileName ++ s.ended.map Prod.fst))
    {started : List String} (hran : s'.ran = s.ran ++ started)
    (hhasRun : ((new.filter Worker.hasRun).map Worker.fileName ++ s'.ended.map Prod.fst).Perm
      (([w].filter Worker.hasRun).map Worker.fileName ++ s.ended.map Prod.fst ++ started)) :
    Inv config keySets tests s' := by
  have hold : s.workers.Perm ([w] ++ s.workers.eraseIdx i) := workers_perm hworker
  refine ⟨?_, ?_, ?_, ?_⟩
  · have := hinv.bounded
    have hlength := hold.length_eq
    rw [List.length_append, List.length_singleton] at hlength
    rw [hworkers.length_eq, List.length_append]
    omega
  · rw [List.perm_iff_count]
    intro k
    have h₁ := hinv.keys.count_eq k
    have h₂ := (hold.filterMap Worker.keys?).count_eq k
    have h₃ := (hworkers.filterMap Worker.keys?).count_eq k
    have h₄ := hkeys.count_eq k
    simp only [State.held, List.filterMap_append, List.count_append] at h₁ h₂ h₃ h₄ ⊢
    omega
  · rw [htests, List.perm_iff_count]
    intro f
    have h₁ := hinv.files.count_eq f
    have h₂ := (hold.map Worker.fileName).count_eq f
    have h₃ := (hworkers.map Worker.fileName).count_eq f
    have h₄ := hfiles.count_eq f
    simp only [List.map_append, List.count_append] at h₁ h₂ h₃ h₄ ⊢
    omega
  · rw [hran, List.perm_iff_count]
    intro f
    have h₁ := hinv.ran.count_eq f
    have h₂ := ((hold.filter Worker.hasRun).map Worker.fileName).count_eq f
    have h₃ := ((hworkers.filter Worker.hasRun).map Worker.fileName).count_eq f
    have h₄ := hhasRun.count_eq f
    simp only [List.filter_append, List.map_append, List.count_append] at h₁ h₂ h₃ h₄ ⊢
    omega

/-- The output of hardhat is UTF-8. -/
def Event.Decodes : Event → Prop
  | .exit _ out _ => IsUtf8 out.stdout ∧ IsUtf8 out.stderr
  | _ => True

theorem outputs_isOk {out : CompletedProcess} :
    (∃ texts, outputs out = .ok texts) ↔ IsUtf8 out.stdout ∧ IsUtf8 out.stderr := by
  rw [isUtf8_iff, isUtf8_iff, outputs]
  constructor
  · rintro ⟨texts, h⟩
    obtain ⟨stdout, hstdout, h⟩ := Fallible.bind_eq_ok.mp h
    obtain ⟨stderr, hstderr, _⟩ := Fallible.bind_eq_ok.mp h
    exact ⟨⟨stdout, hstdout⟩, stderr, hstderr⟩
  · rintro ⟨⟨stdout, hstdout⟩, stderr, hstderr⟩
    rw [hstdout, hstderr]
    exact ⟨(stdout, stderr), rfl⟩

/-- A worker that is about to take a key set leaves one for itself. -/
theorem Inv.keysEnv_ne_nil (hinv : Inv config keySets tests s)
    (hlength : keySets.length = config.jobs) (hmem : w ∈ s.workers)
    (hstarted : w.phase = .started) : s.keysEnv ≠ [] := by
  intro hnil
  have hheld : s.held.length < s.workers.length := by
    rw [State.held, List.length_filterMap_lt_length_iff_exists]
    refine ⟨w, hmem, ?_⟩
    rw [Worker.keys?, hstarted]
  have hall := hinv.keys.length_eq
  rw [hnil, List.append_nil] at hall
  have := hinv.bounded
  omega

/-- **One step.** -/
theorem Inv.step (hinv : Inv config keySets tests s) (hlength : keySets.length = config.jobs)
    (hdecodes : e.Decodes) (h : step config s e = some s') : Inv config keySets tests s' := by
  rcases step_did h with ⟨htests, hidle⟩ | ⟨hworker, hkeys⟩ | ⟨hworker, hkeys⟩ |
    ⟨hworker, houtputs⟩ | ⟨hworker, houtputs⟩ | hworker | hworker
  · refine ⟨?_, ?_, ?_, ?_⟩
    · rw [List.length_append, List.length_singleton]
      exact hidle
    · rw [State.held, List.filterMap_append, List.filterMap_cons_none rfl, List.filterMap_nil,
        List.append_nil]
      exact hinv.keys
    · have hfiles := hinv.files
      rw [htests] at hfiles
      refine .trans (.append_right _ ?_) hfiles
      rw [List.map_append, List.cons_append, ← List.append_assoc]
      exact List.perm_append_singleton _ _
    · rw [List.filter_append, List.filter_cons_of_neg Bool.false_ne_true, List.filter_nil,
        List.append_nil]
      exact hinv.ran
  · refine hinv.replaced hworker [⟨_, .running _ _⟩] (workers_set_perm hworker) le_rfl rfl ?_ .rfl
      rfl List.perm_append_comm
    rw [hkeys]
    exact .rfl
  · exact absurd hkeys (hinv.keysEnv_ne_nil hlength (List.mem_of_getElem? hworker) rfl)
  · exact hinv.replaced hworker [⟨_, .finished _ _⟩] (workers_set_perm hworker) le_rfl rfl .rfl .rfl
      (List.append_nil _).symm (by rw [List.append_nil]; exact .rfl)
  · obtain ⟨texts, htexts⟩ := outputs_isOk.mpr hdecodes
    rw [houtputs] at htexts
    cases htexts
  · exact hinv.replaced hworker [⟨_, .logging _⟩] (workers_set_perm hworker) le_rfl rfl
      (List.perm_append_singleton _ _) .rfl (List.append_nil _).symm
      (by rw [List.append_nil]; exact .rfl)
  · refine hinv.replaced hworker [] .rfl (Nat.zero_le _) rfl .rfl ?_ (List.append_nil _).symm ?_
    · rw [State.finish, List.map_append]
      exact List.perm_append_singleton _ _
    · rw [State.finish, List.map_append, List.append_nil]
      exact List.perm_append_singleton _ _

-- ---------------------------------------------------------------------------
-- Every moment of a run
-- ---------------------------------------------------------------------------

/-- What the key pool is to be: every prepared key set is held by one worker or free, a worker
that wants one gets one, and hardhat was started for every file whose call has ended. -/
structure Conserved (keySets : List KeySet) (tests : List String) (s : State) : Prop where
  keys : (s.held ++ s.keysEnv).Perm keySets
  exclusive : s.held.Nodup
  pop_succeeds : ∀ w ∈ s.workers, w.phase = .started →
    ∃ keys rest, popFirst s.keysEnv = .ok (keys, rest)
  ended_ran : ∀ call ∈ s.ended, call.1 ∈ s.ran
  complete : s.tests = [] → s.workers = [] → s.ran.Perm tests

theorem Inv.conserved (hinv : Inv config keySets tests s) (hnodup : keySets.Nodup)
    (hlength : keySets.length = config.jobs) : Conserved keySets tests s where
  keys := hinv.keys
  exclusive := (hinv.keys.nodup_iff.mpr hnodup).of_append_left
  pop_succeeds := by
    intro w hw hstarted
    have hne := hinv.keysEnv_ne_nil hlength hw hstarted
    obtain ⟨keys, rest, hkeys⟩ := List.exists_cons_of_ne_nil hne
    exact ⟨keys, rest, by rw [hkeys, popFirst]⟩
  ended_ran := by
    intro call hcall
    exact hinv.ran.subset (List.mem_append_right _ (List.mem_map_of_mem hcall))
  complete := by
    intro htests hworkers
    have hran := hinv.ran
    have hfiles := hinv.files
    rw [hworkers] at hran hfiles
    rw [htests] at hfiles
    exact hran.symm.trans hfiles

theorem prioritisedTests_perm (tests : List String) : (prioritisedTests tests).Perm tests :=
  List.filter_append_perm hasPriority tests

theorem prepared_length (config : Config) (accounts : Nat → List String) :
    (prepared config accounts).length = config.jobs := by
  rw [prepared, List.length_map, List.length_range]

theorem prepared_nodup (config : Config) (accounts : Nat → List String) :
    (prepared config accounts).Nodup :=
  List.nodup_range.map fun _ _ h => congrArg KeySet.id h

theorem inv_initial (config : Config) (accounts : Nat → List String) (tests : List String) :
    Inv config (prepared config accounts) tests (initial config accounts tests) where
  bounded := Nat.zero_le _
  keys := .rfl
  files := by
    show (prioritisedTests tests ++ [] ++ []).Perm tests
    rw [List.append_nil, List.append_nil]
    exact prioritisedTests_perm tests
  ran := .rfl

/-- An output that does not decode takes a key set out of the pool. -/
theorem length_lost (hlost : ¬ e.Decodes) (h : step config s e = some s') :
    (s'.held ++ s'.keysEnv).length + 1 = (s.held ++ s.keysEnv).length := by
  rcases step_did h with ⟨htests, hidle⟩ | ⟨hworker, hkeys⟩ | ⟨hworker, hkeys⟩ |
    ⟨hworker, houtputs⟩ | ⟨hworker, houtputs⟩ | hworker | hworker
  · exact absurd trivial hlost
  · exact absurd trivial hlost
  · exact absurd trivial hlost
  · exact absurd (outputs_isOk.mp ⟨_, houtputs⟩) hlost
  · have hheld := ((workers_perm hworker).filterMap Worker.keys?).length_eq
    rw [List.filterMap_cons_some (f := Worker.keys?) rfl, List.length_cons] at hheld
    rw [List.length_append, List.length_append]
    show (List.filterMap _ _).length + _ + 1 = (List.filterMap _ _).length + _
    rw [hheld]
    exact Nat.add_right_comm _ _ _
  · exact absurd trivial hlost
  · exact absurd trivial hlost

/-- A run that keeps the key sets has only decodable outputs. -/
theorem decodes_of_keys {events : List Event} (hrun : run (step config) s events = some s')
    (hkeys : ∀ t ∈ states (step config) s events, (t.held ++ t.keysEnv).Perm keySets) :
    ∀ e ∈ events, e.Decodes := by
  induction events generalizing s with
  | nil => exact List.forall_mem_nil _
  | cons e events ih =>
    obtain ⟨next, hstep, hrun⟩ := run_cons.mp hrun
    rw [states_cons hstep, List.forall_mem_cons] at hkeys
    refine List.forall_mem_cons.mpr ⟨?_, ih hrun hkeys.2⟩
    by_contra hlost
    have hbefore := hkeys.1.length_eq
    have hafter := (hkeys.2 next mem_states_start).length_eq
    have := length_lost hlost hstep
    omega

/-- **The key pool.** In every run, with any number of files, jobs and hardhat outcomes and in
any order, the key sets are conserved at every moment exactly if every output of hardhat
is UTF-8. -/
theorem keys_conserved_iff (config : Config) (accounts : Nat → List String)
    (tests : List String) (events : List Event) (s : State)
    (hrun : run (step config) (initial config accounts tests) events = some s) :
    (∀ t ∈ states (step config) (initial config accounts tests) events,
      Conserved (prepared config accounts) tests t) ↔ ∀ e ∈ events, e.Decodes := by
  refine ⟨fun h => decodes_of_keys hrun fun t ht => (h t ht).keys, ?_⟩
  intro hdecodes t ht
  have hlength := prepared_length config accounts
  have hinv := states_induction (Inv config (prepared config accounts) tests)
    (inv_initial config accounts tests)
    (fun _ e _ hinv (he : e.Decodes) h => hinv.step hlength he h) (steps_of_forall hdecodes) t ht
  exact hinv.conserved (prepared_nodup config accounts) hlength

-- ---------------------------------------------------------------------------
-- One worker, two files
-- ---------------------------------------------------------------------------

def sampleConfig : Config where
  jobs := 1
  environ := Dict.empty
  networkId := "245022926"
  proxyUrl := "http://proxy"

def sampleAccounts (_ : Nat) : List String := ["0x01", "0x02"]

def sampleTests : List String := ["test/access/Ownable.test.js", "test/utils/Address.test.js"]

/-- A whole call, from hand-out to log files. -/
def callEvents (out : CompletedProcess) : List Event :=
  [.dispatch, .pop 0, .exit 0 out "12.00s", .append 0, .write 0 (.ok ())]

theorem keys_conserved_sample : ∃ s,
    run (step sampleConfig) (initial sampleConfig sampleAccounts sampleTests)
      (callEvents ⟨0, [], []⟩ ++ callEvents ⟨1, [0x78], []⟩) = some s ∧
    ∀ t ∈ states (step sampleConfig) (initial sampleConfig sampleAccounts sampleTests)
        (callEvents ⟨0, [], []⟩ ++ callEvents ⟨1, [0x78], []⟩),
      Conserved (prepared sampleConfig sampleAccounts) sampleTests t := by
  refine ⟨_, rfl, ?_⟩
  have hempty : IsUtf8 [] := ⟨"", rfl⟩
  have hx : IsUtf8 [0x78] := ⟨"x", by decide⟩
  refine (keys_conserved_iff sampleConfig sampleAccounts sampleTests _ _ rfl).mpr ?_
  simp [callEvents, Event.Decodes, hempty, hx]

/-- The first file's run prints a byte that is no UTF-8; the second file is not run. -/
theorem keys_lost : ∃ s,
    run (step sampleConfig) (initial sampleConfig sampleAccounts sampleTests)
      [.dispatch, .pop 0, .exit 0 ⟨0, [0xFF], []⟩ "12.00s", .dispatch, .pop 0] = some s ∧
    s.ended.map Prod.fst = sampleTests ∧ s.ran = ["test/access/Ownable.test.js"] ∧
    ¬ Conserved (prepared sampleConfig sampleAccounts) sampleTests s := by
  refine ⟨_, rfl, rfl, rfl, ?_⟩
  intro h
  have hran := h.ended_ran _ (List.mem_append_right _ List.mem_cons_self)
  exact absurd hran (by decide)

end NeonTests.KeyPool
