import NeonTests.ErrorLog.Contents

/-!
# Error log — the two summaries of the failures

`has_logs` asks whether any group has an entry, `get_count_by_group` whether any group has a
name. `add_failures` with no names makes the one without the other.

* `summaries_agree_iff` — when the two agree, in every state a run reaches between two calls.
-/

namespace NeonTests.ErrorLog

open Python Fallible Runs

/-! ## The summaries -/

/-- `has_logs` -/
def ErrorLogModel.hasLogs (log : ErrorLogModel) : Bool :=
  !log.failures.items.isEmpty || !log.errors.items.isEmpty

/-- `{group: len(d[group]) for group in d if len(d[group]) > 0}` -/
def lengths (d : Dict TestGroup (List String)) : Dict TestGroup Nat :=
  Dict.fromKeys (d.keys.filter fun group => 0 < (d.group group).length)
    fun group => (d.group group).length

/-- `get_count_by_group`; the union of the keys is a set, which has no order. -/
def ErrorLogModel.getCountByGroup (log : ErrorLogModel) : Dict TestGroup Nat :=
  let failedByGroup := lengths log.failures
  let erroredByGroup := lengths log.errors
  Dict.fromKeys (failedByGroup.keys ++ erroredByGroup.keys) fun key =>
    (failedByGroup.get? key).getD 0 + (erroredByGroup.get? key).getD 0

/-- The names recorded for a group, under failures and under errors. -/
def ErrorLogModel.count (log : ErrorLogModel) (g : TestGroup) : Nat :=
  (log.entries (.failures g)).length + (log.entries (.errors g)).length

theorem get?_lengths (d : Dict TestGroup (List String)) (g : TestGroup) :
    (lengths d).get? g = if 0 < (d.group g).length then some (d.group g).length else none := by
  rw [lengths, Dict.get?_fromKeys]
  by_cases hlen : 0 < (d.group g).length
  · have hkey : g ∈ d.keys := by
      rw [Dict.mem_keys]
      intro hnone
      simp [Dict.group, hnone] at hlen
    simp [hkey, hlen]
  · simp [hlen]

theorem getD_lengths (d : Dict TestGroup (List String)) (g : TestGroup) :
    ((lengths d).get? g).getD 0 = (d.group g).length := by
  rw [get?_lengths]
  split
  · rfl
  · next h => exact (Nat.eq_zero_of_not_pos h).symm

/-- A group is there if it has a name, and is given the number of its names. -/
theorem get?_getCountByGroup (log : ErrorLogModel) (g : TestGroup) :
    log.getCountByGroup.get? g = if 0 < log.count g then some (log.count g) else none := by
  have hkeys : g ∈ (lengths log.failures).keys ++ (lengths log.errors).keys ↔ 0 < log.count g := by
    have hlengths (d : Dict TestGroup (List String)) :
        g ∈ (lengths d).keys ↔ 0 < (d.group g).length := by
      simp [Dict.mem_keys, get?_lengths, List.length_pos_iff]
    rw [List.mem_append, hlengths, hlengths]
    simp only [ErrorLogModel.count, ErrorLogModel.entries]
    omega
  simp only [ErrorLogModel.getCountByGroup, Dict.get?_fromKeys, hkeys, getD_lengths]
  rfl

theorem hasLogs_iff (log : ErrorLogModel) : log.hasLogs = true ↔
    ∃ g, log.failures.get? g ≠ none ∨ log.errors.get? g ≠ none := by
  have hempty (d : Dict TestGroup (List String)) :
      (!d.items.isEmpty) = true ↔ ∃ g, d.get? g ≠ none := by
    rw [Bool.not_eq_true', ← Bool.not_eq_true, List.isEmpty_iff, Dict.items_eq_nil_iff]
    simp
  rw [ErrorLogModel.hasLogs, Bool.or_eq_true, hempty, hempty, exists_or]

theorem getCountByGroup_ne_nil_iff (log : ErrorLogModel) :
    log.getCountByGroup.items ≠ [] ↔ ∃ g, 0 < log.count g := by
  rw [Ne, Dict.items_eq_nil_iff]
  simp [get?_getCountByGroup, Nat.pos_iff_ne_zero]

/-! ## Which groups are there -/

variable {Proc : Type}

/-- An update that looks a group up makes it, also where it has nothing to add. -/
def Call.makes (place : Place) : Call → Prop
  | .update (.raising _) => False
  | .update u => u.place = place
  | _ => False

/-- The lists that are there, possibly empty. -/
def ErrorLogModel.Has (log : ErrorLogModel) : Place → Prop
  | .failures g => log.failures.get? g ≠ none
  | .errors g => log.errors.get? g ≠ none
  | .comments => True

theorem get?_extend_ne_none (d : Dict TestGroup (List String)) (g k : TestGroup)
    (names : List String) : (d.extend g names).get? k ≠ none ↔ d.get? k ≠ none ∨ g = k := by
  rw [Dict.extend, Dict.get?_set]
  split
  · next h => simp [h]
  · next h => simp [h]

/-- One call makes at most the group it names. -/
theorem has_effect {log log' : ErrorLogModel} {call : Call} (hclear : call ≠ .clear)
    (h : effect (.ok log) call = .ok log') (place : Place) :
    log'.Has place ↔ log.Has place ∨ call.makes place := by
  cases call with
  | clear => exact (hclear rfl).elim
  | construct =>
    cases h
    simp [Call.makes]
  | update u =>
    cases u <;> cases h <;> cases place <;>
      simp [ErrorLogModel.Has, Call.makes, Update.place, get?_extend_ne_none]

/-- A group comes with a name, or from a call with no names. -/
theorem makes_iff (call : Call) (g : TestGroup) :
    (call.makes (.failures g) ∨ call.makes (.errors g)) ↔
      (call.adds (.failures g) ≠ [] ∨ call.adds (.errors g) ≠ []) ∨
        call = .update (.addFailures g []) := by
  cases call with
  | construct => simp [Call.makes, Call.adds]
  | clear => simp [Call.makes, Call.adds]
  | update u =>
    cases u with
    | addFailures k texts => by_cases hk : k = g <;> cases texts <;>
        simp [Call.makes, Call.adds, Update.place, Update.texts, hk]
    | _ => simp [Call.makes, Call.adds, Update.place, Update.texts]

theorem has_replay (calls : List (Proc × Call)) (hclear : ∀ x ∈ calls, x.2 ≠ .clear) :
    ∃ log, replay (.ok .default) calls = .ok log ∧ ∀ place,
      log.Has place ↔ ErrorLogModel.default.Has place ∨ ∃ x ∈ calls, x.2.makes place := by
  induction calls using List.reverseRecOn with
  | nil => exact ⟨.default, rfl, by simp⟩
  | append_singleton calls x ih =>
    rw [List.forall_mem_append, List.forall_mem_singleton] at hclear
    obtain ⟨log, hreplay, hhas⟩ := ih hclear.1
    obtain ⟨log', heffect, _⟩ := effect_ok log x.2
    refine ⟨log', ?_, ?_⟩
    · rw [replay_append, hreplay]
      exact heffect
    · intro place
      rw [has_effect hclear.2 heffect, hhas]
      simp [or_assoc]

theorem sinceClear_concat (calls : List (Proc × Call)) (x : Proc × Call) :
    sinceClear (calls ++ [x]) = if x.2 = .clear then [] else sinceClear calls ++ [x] := by
  by_cases h : x.2 = .clear <;> simp [sinceClear, h]

/-- A log that was cleared, or new to begin with, is the one that the calls since then make of a
new log. -/
theorem replay_sinceClear {start : Reading} {calls : List (Proc × Call)}
    (hstart : start = .ok .default ∨ Cleared calls) :
    replay start calls = replay (.ok .default) (sinceClear calls) := by
  induction calls using List.reverseRecOn with
  | nil =>
    rw [hstart.resolve_right (by simp [Cleared])]
    rfl
  | append_singleton calls x ih =>
    obtain ⟨p, call⟩ := x
    rw [sinceClear_concat, replay_append]
    split
    · next h =>
      cases h
      rfl
    · next h =>
      have hcleared : Cleared (calls ++ [(p, call)]) ↔ Cleared calls := by
        have hne : Call.clear ≠ call := fun e => h e.symm
        simp [Cleared, hne]
      rw [replay_append, ih (hstart.imp_right hcleared.mp)]

/-- What the calls since the last `clear` have recorded for a group. -/
def names (calls : List (Proc × Call)) (g : TestGroup) : List String :=
  (sinceClear calls).flatMap (fun x => x.2.adds (.failures g)) ++
    (sinceClear calls).flatMap fun x => x.2.adds (.errors g)

/-- `add_failures` was called with an empty list, and not cleared since. -/
def EmptyAdd (calls : List (Proc × Call)) : Prop :=
  ∃ x ∈ sinceClear calls, ∃ g, x.2 = .update (.addFailures g [])

/-- The log of a sequence of calls: how many names each group has, and whether `has_logs`. -/
theorem summaries_replay {start : Reading} {calls : List (Proc × Call)}
    (hstart : start = .ok .default ∨ Cleared calls) :
    ∃ log, replay start calls = .ok log ∧ (∀ g, log.count g = (names calls g).length) ∧
      (log.hasLogs = true ↔ (∃ g, names calls g ≠ []) ∨ EmptyAdd calls) := by
  obtain ⟨log, hreplay, hentries⟩ :=
    entries_replay start calls (hstart.imp_left fun h => ⟨_, h⟩)
  have hclear : ∀ x ∈ sinceClear calls, x.2 ≠ .clear := by
    intro x hx
    simpa using List.mem_rtakeWhile_imp hx
  obtain ⟨log', hreplay', hhas⟩ := has_replay (sinceClear calls) hclear
  obtain rfl : log = log' := by
    rw [replay_sinceClear hstart, hreplay'] at hreplay
    exact (Except.ok.inj hreplay).symm
  have hbefore : ∀ place, recorded start calls place =
      (sinceClear calls).flatMap fun x => x.2.adds place := by
    intro place
    rw [recorded]
    rcases hstart with rfl | hcleared
    · rw [before, entries_default, ite_self, List.nil_append]
    · rw [if_pos hcleared, List.nil_append]
  refine ⟨log, hreplay, ?_, ?_⟩
  · intro g
    rw [ErrorLogModel.count, hentries, hentries, hbefore, hbefore, names, List.length_append]
  · have hnames (g : TestGroup) : names calls g ≠ [] ↔ ∃ x ∈ sinceClear calls,
        x.2.adds (.failures g) ≠ [] ∨ x.2.adds (.errors g) ≠ [] := by
      simp [names, imp_iff_not_or, ← exists_or, ← and_or_left]
    have hmade (g : TestGroup) : log.failures.get? g ≠ none ∨ log.errors.get? g ≠ none ↔
        ∃ x ∈ sinceClear calls, x.2.makes (.failures g) ∨ x.2.makes (.errors g) := by
      have hfailures := hhas (.failures g)
      have herrors := hhas (.errors g)
      simp only [ErrorLogModel.Has] at hfailures herrors
      rw [hfailures, herrors]
      simp [ErrorLogModel.default, Dict.get?, Dict.empty, Dict.lookup, ← exists_or, ← and_or_left]
    simp only [hasLogs_iff, hmade, makes_iff, hnames, EmptyAdd]
    constructor
    · rintro ⟨g, x, hx, hadds | hempty⟩
      · exact .inl ⟨g, x, hx, hadds⟩
      · exact .inr ⟨x, hx, g, hempty⟩
    · rintro (⟨g, x, hx, hadds⟩ | ⟨x, hx, g, hempty⟩)
      · exact ⟨g, x, hx, .inl hadds⟩
      · exact ⟨g, x, hx, .inr hempty⟩

/-! ## Runs -/

variable [DecidableEq Proc]

/-- **The two summaries.** Whenever the lock is free, in a run that starts with a new log (or no
file) or clears what it starts with: the counts are those of the names recorded since the last
`clear`, and `has_logs` agrees with them if and only if there is such a name or no `add_failures`
had an empty list. -/
theorem summaries_agree_iff (file : File) (events : List (Event Proc)) (s : System Proc)
    (hrun : run step (initial Proc file) events = some s) (hfree : s.holder = none)
    (hconstructed : s.constructed ≠ [])
    (hfile : file.log = .ok .default ∨ Cleared (lockOrder events)) :
    ∃ log, s.file.read = .ok log ∧
      (((log.hasLogs = true ↔ log.getCountByGroup.items ≠ []) ∧
          ∀ g, (log.getCountByGroup.get? g).getD 0 = (names (lockOrder events) g).length) ↔
        (∃ g, names (lockOrder events) g ≠ []) ∨ ¬ EmptyAdd (lockOrder events)) := by
  obtain ⟨done, horder, hrep⟩ := represents_run (represents_initial file) rfl hrun
  rw [inFlight, hfree, List.append_nil] at horder
  rw [horder] at hfile ⊢
  obtain ⟨log, hreplay, hcount, hlogs⟩ := summaries_replay hfile
  refine ⟨log, ?_, ?_⟩
  · rw [← log_eq_read (hrep.present hconstructed), hrep.free hfree, hreplay]
  · have hcounts : ∀ g, (log.getCountByGroup.get? g).getD 0 = (names done g).length := by
      intro g
      rw [get?_getCountByGroup, ← hcount]
      split
      · rfl
      · next h => exact (Nat.eq_zero_of_not_pos h).symm
    have hsome : log.getCountByGroup.items ≠ [] ↔ ∃ g, names done g ≠ [] := by
      simp only [getCountByGroup_ne_nil_iff, hcount, List.length_pos_iff]
    rw [hlogs, hsome, and_iff_left hcounts, or_iff_left_iff_imp, imp_iff_not_or, or_comm]

/-- One process; a suite that fails with no failing test calls `add_failures` with no names. -/
def emptyAddEvents (after : List (Event Unit)) : List (Event Unit) := [
  .acquire () .construct, .advance (), .advance (), .advance (),
  .acquire () (.update (.addFailures .oz [])), .advance (), .advance (), .advance (),
  .advance ()] ++ after

def namedEvents : List (Event Unit) := emptyAddEvents [
  .acquire () (.update (.addError .oz "setup")), .advance (), .advance (), .advance (),
  .advance ()]

def namedState : System Unit :=
  (run step (initial Unit .absent) namedEvents).getD (initial Unit .absent)

theorem summaries_agree_iff_named : ∃ log, namedState.file.read = .ok log ∧
    (((log.hasLogs = true ↔ log.getCountByGroup.items ≠ []) ∧
        ∀ g, (log.getCountByGroup.get? g).getD 0 = (names (lockOrder namedEvents) g).length) ↔
      (∃ g, names (lockOrder namedEvents) g ≠ []) ∨ ¬ EmptyAdd (lockOrder namedEvents)) :=
  summaries_agree_iff .absent namedEvents namedState rfl rfl (List.cons_ne_nil () []) (.inl rfl)

/-- `has_logs` is true of a log without a name. -/
theorem hasLogs_without_names : ∃ s log,
    run step (initial Unit .absent) (emptyAddEvents []) = some s ∧ s.holder = none ∧
      s.file.read = .ok log ∧ log.hasLogs = true ∧ log.getCountByGroup.items = [] :=
  ⟨_, _, rfl, rfl, rfl, by decide, by decide⟩

end NeonTests.ErrorLog
