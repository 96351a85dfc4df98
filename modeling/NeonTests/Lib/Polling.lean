import NeonTests.Lib.Script

/-!
# Polling — asking until an answer settles it

A loop that asks with the numbers 0, 1, 2, ... and takes each answer for a result, for a failure
or for a reason to go on. `Asks` says how the world answers and what of it a question leaves.

The loop ends with the first answer that settles it (`exec_poll_of_settled`) or the first
question that cannot be asked (`exec_poll_of_failed`); until then it has asked every number once
and no other.
-/

namespace Polling

open Scripts

variable {ε σ α β : Type}

/-- What an answer is taken for: `.ok none` is to go on. -/
abbrev Settle (ε α β : Type) := α → Except ε (Option β)

def poll (ask : Nat → Script ε σ α) (settle : Settle ε α β) (exhausted : ε) :
    (fuel index : Nat) → Script ε σ β
  | 0, _ => fail exhausted
  | fuel + 1, index => do
    let answer ← ask index
    match settle answer with
    | .error e => fail e
    | .ok (some result) => pure result
    | .ok none => poll ask settle exhausted fuel (index + 1)

/-- The first `n` questions are answered, and take the world from one to the next. -/
def Asks (ask : Nat → Script ε σ α) (answer : Nat → α) (world : Nat → σ) (n : Nat) : Prop :=
  ∀ i < n, exec (ask i) (world i) = (.ok (answer i), world (i + 1))

variable {ask : Nat → Script ε σ α} {settle : Settle ε α β} {exhausted : ε} {answer : Nat → α}
  {world : Nat → σ} {k : Nat}

theorem exec_poll_succ (fuel index : Nat) (s : σ) :
    exec (poll ask settle exhausted (fuel + 1) index) s = match exec (ask index) s with
      | (.ok a, s') => match settle a with
        | .error e => (.error e, s')
        | .ok (some result) => (.ok result, s')
        | .ok none => exec (poll ask settle exhausted fuel (index + 1)) s'
      | (.error e, s') => (.error e, s') := by
  rw [poll, exec_bind]
  rcases exec (ask index) s with ⟨_ | a, s'⟩
  · rfl
  · dsimp only
    rcases settle a with _ | _ | _ <;> rfl

/-- A question that is answered with nothing. -/
theorem exec_poll_go_on {index : Nat} {s s' : σ} {a : α} (hask : exec (ask index) s = (.ok a, s'))
    (hsettle : settle a = .ok none) (fuel : Nat) :
    exec (poll ask settle exhausted (fuel + 1) index) s =
      exec (poll ask settle exhausted fuel (index + 1)) s' := by
  rw [exec_poll_succ, hask]
  dsimp only
  rw [hsettle]

/-- After `k` answers that settle nothing, the loop is at its `k`-th question. -/
theorem exec_poll_after (hasks : Asks ask answer world k)
    (hopen : ∀ i < k, settle (answer i) = .ok none) (fuel : Nat) :
    exec (poll ask settle exhausted (k + fuel) 0) (world 0) =
      exec (poll ask settle exhausted fuel k) (world k) := by
  induction k generalizing fuel with
  | zero => rw [Nat.zero_add]
  | succ k ih =>
    rw [Nat.add_assoc, ih (fun i hi => hasks i (Nat.lt_succ_of_lt hi))
      (fun i hi => hopen i (Nat.lt_succ_of_lt hi)), Nat.add_comm 1 fuel]
    exact exec_poll_go_on (hasks k (Nat.lt_succ_self k)) (hopen k (Nat.lt_succ_self k)) fuel

/-- The first answer that settles it ends the loop. -/
theorem exec_poll_of_settled (hasks : Asks ask answer world (k + 1))
    (hopen : ∀ i < k, settle (answer i) = .ok none) {outcome : Except ε β}
    (hsettle : settle (answer k) = outcome.map some) {fuel : Nat} (hfuel : k < fuel) :
    exec (poll ask settle exhausted fuel 0) (world 0) = (outcome, world (k + 1)) := by
  obtain ⟨more, rfl⟩ : ∃ more, fuel = k + (more + 1) := ⟨fuel - k - 1, by omega⟩
  rw [exec_poll_after (fun i hi => hasks i (Nat.lt_succ_of_lt hi)) hopen, exec_poll_succ,
    hasks k (Nat.lt_succ_self k)]
  dsimp only
  rw [hsettle]
  cases outcome <;> rfl

/-- So does the first question that cannot be asked. -/
theorem exec_poll_of_failed (hasks : Asks ask answer world k)
    (hopen : ∀ i < k, settle (answer i) = .ok none) {e : ε}
    (hfail : exec (ask k) (world k) = (.error e, world k)) {fuel : Nat} (hfuel : k < fuel) :
    exec (poll ask settle exhausted fuel 0) (world 0) = (.error e, world k) := by
  obtain ⟨more, rfl⟩ : ∃ more, fuel = k + (more + 1) := ⟨fuel - k - 1, by omega⟩
  rw [exec_poll_after hasks hopen, exec_poll_succ, hfail]

/-- Without an end in sight all fuel is used. -/
theorem exec_poll_exhausted {fuel : Nat} (hasks : Asks ask answer world fuel)
    (hopen : ∀ i < fuel, settle (answer i) = .ok none) :
    exec (poll ask settle exhausted fuel 0) (world 0) = (.error exhausted, world fuel) :=
  exec_poll_after hasks hopen 0

end Polling
