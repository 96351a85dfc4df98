import NeonTests.Lib.Decimal

/-!
# Operator keys — one file for each worker

The fixtures `operator_keypair` and `second_operator_keypair` of the Neon EVM tests. Each
worker of a parallel run takes the keys of its two operators from files numbered by the last
character of the worker's name.

* `operatorKeyFile_workerId`, `secondOperatorKeyFile_workerId` — the files of worker `n`;
* `apart_iff` — for how many workers no file is taken twice.
-/

namespace NeonTests.Operators

open Fallible Python

-- ---------------------------------------------------------------------------
-- The fixtures
-- ---------------------------------------------------------------------------

def OPERATOR_KEYPAIR_PATH : String := "deploy/operator-keypairs"

/-- `int(worker_id[-1])` -/
def lastDigit (workerId : String) : Except PyError Nat :=
  match workerId.toList.getLast? with
  | none => .error .indexError
  | some c =>
    match decimal? c with
    | none => .error .valueError
    | some d => .ok d

def keyFile (name : String) : String := OPERATOR_KEYPAIR_PATH ++ "/id" ++ name ++ ".json"

/-- What the fixtures share: the file that `master` and `gw1` take, and the number the others
count from. -/
def workerKeyFile (special : String) (offset : Nat) (workerId : String) :
    Except PyError String :=
  if workerId = "master" ∨ workerId = "gw1" then .ok (keyFile special)
  else do
    let digit ← lastDigit workerId
    return keyFile (toString (offset + digit + 2))

def operatorKeyFile (workerId : String) : Except PyError String := workerKeyFile "" 0 workerId

def secondOperatorKeyFile (workerId : String) : Except PyError String :=
  workerKeyFile "20" 20 workerId

-- ---------------------------------------------------------------------------
-- The files of a worker
-- ---------------------------------------------------------------------------

/-- `gw0`, `gw1`, .. -/
def workerId (n : Nat) : String := "gw" ++ toString n

/-- The name in the worker's first file; worker 1 has the one without a number. -/
def firstName (n : Nat) : String := if n = 1 then "" else toString (n % 10 + 2)

def secondNumber (n : Nat) : Nat := if n = 1 then 20 else n % 10 + 22

theorem workerId_eq_gw1 {n : Nat} : workerId n = "gw1" ↔ n = 1 := by
  have hone : "gw1" = "gw" ++ toString 1 := by decide
  rw [workerId, hone, String.append_right_inj]
  exact ⟨fun h => toString_injective h, congrArg _⟩

theorem workerId_ne_master (n : Nat) : workerId n ≠ "master" := by
  intro h
  have hhead := congrArg (fun s : String => s.toList.head?) h
  simp [workerId] at hhead

theorem lastDigit_workerId (n : Nat) : lastDigit (workerId n) = .ok (n % 10) := by
  have hlast : (workerId n).toList.getLast? = some (n % 10).digitChar := by
    rw [workerId, String.toList_append, List.getLast?_append, getLast_toString]
    rfl
  rw [lastDigit, hlast]
  simp only [decimal?_digitChar (Nat.mod_lt n (by omega))]

theorem workerKeyFile_workerId (special : String) (offset n : Nat) :
    workerKeyFile special offset (workerId n) =
      .ok (keyFile (if n = 1 then special else toString (offset + n % 10 + 2))) := by
  unfold workerKeyFile
  simp only [workerId_ne_master, false_or, workerId_eq_gw1]
  split
  · rfl
  · rw [lastDigit_workerId, ok_bind]
    rfl

theorem operatorKeyFile_workerId (n : Nat) :
    operatorKeyFile (workerId n) = .ok (keyFile (firstName n)) := by
  rw [operatorKeyFile, workerKeyFile_workerId, Nat.zero_add]
  rfl

theorem secondOperatorKeyFile_workerId (n : Nat) :
    secondOperatorKeyFile (workerId n) = .ok (keyFile (toString (secondNumber n))) := by
  rw [secondOperatorKeyFile, workerKeyFile_workerId, secondNumber, apply_ite toString,
    Nat.add_comm 20, Nat.add_assoc]
  rfl

-- ---------------------------------------------------------------------------
-- Which files are the same
-- ---------------------------------------------------------------------------

theorem keyFile_inj {s t : String} : keyFile s = keyFile t ↔ s = t := by
  rw [keyFile, keyFile, String.append_left_inj, String.append_right_inj]

theorem toString_ne_empty (n : Nat) : toString n ≠ "" := by
  intro h
  exact toList_toString_ne_nil n (by rw [h]; rfl)

theorem firstName_inj {m n : Nat} :
    firstName m = firstName n ↔ (m = 1 ∧ n = 1) ∨ (m ≠ 1 ∧ n ≠ 1 ∧ m % 10 = n % 10) := by
  unfold firstName
  by_cases hm : m = 1 <;> by_cases hn : n = 1
  · simp [hm, hn]
  · simp [hm, hn]
  · simp [hm, hn]
  · have hnumber : toString (m % 10 + 2) = toString (n % 10 + 2) ↔ m % 10 + 2 = n % 10 + 2 :=
      toString_injective.eq_iff
    simp only [hm, hn, if_false, hnumber, false_and, false_or, ne_eq, not_false_eq_true, true_and]
    omega

theorem secondNumber_inj {m n : Nat} :
    secondNumber m = secondNumber n ↔ (m = 1 ∧ n = 1) ∨ (m ≠ 1 ∧ n ≠ 1 ∧ m % 10 = n % 10) := by
  unfold secondNumber
  split <;> split <;> omega

/-- The first files are numbered up to 11, the second from 20 on. -/
theorem firstName_ne_second (m n : Nat) : firstName m ≠ toString (secondNumber n) := by
  unfold firstName secondNumber
  by_cases hm : m = 1
  · rw [if_pos hm]
    exact (toString_ne_empty _).symm
  · rw [if_neg hm]
    intro h
    have hnumber := toString_injective h
    split at hnumber <;> omega

/-- No two of `n` workers share an operator. -/
structure Apart (n : Nat) : Prop where
  first : ∀ i j, i < n → j < n → i ≠ j →
    operatorKeyFile (workerId i) ≠ operatorKeyFile (workerId j)
  second : ∀ i j, i < n → j < n → i ≠ j →
    secondOperatorKeyFile (workerId i) ≠ secondOperatorKeyFile (workerId j)
  across : ∀ i j, i < n → j < n →
    operatorKeyFile (workerId i) ≠ secondOperatorKeyFile (workerId j)

theorem operatorKeyFile_eq_iff {i j : Nat} :
    operatorKeyFile (workerId i) = operatorKeyFile (workerId j) ↔
      (i = 1 ∧ j = 1) ∨ (i ≠ 1 ∧ j ≠ 1 ∧ i % 10 = j % 10) := by
  rw [operatorKeyFile_workerId, operatorKeyFile_workerId, Except.ok.injEq, keyFile_inj,
    firstName_inj]

theorem secondOperatorKeyFile_eq_iff {i j : Nat} :
    secondOperatorKeyFile (workerId i) = secondOperatorKeyFile (workerId j) ↔
      (i = 1 ∧ j = 1) ∨ (i ≠ 1 ∧ j ≠ 1 ∧ i % 10 = j % 10) := by
  rw [secondOperatorKeyFile_workerId, secondOperatorKeyFile_workerId, Except.ok.injEq,
    keyFile_inj, toString_injective.eq_iff, secondNumber_inj]

theorem operatorKeyFile_ne_second (i j : Nat) :
    operatorKeyFile (workerId i) ≠ secondOperatorKeyFile (workerId j) := by
  rw [operatorKeyFile_workerId, secondOperatorKeyFile_workerId]
  intro h
  exact firstName_ne_second i j (keyFile_inj.mp (Except.ok.inj h))

/-- **Operators of parallel workers.** No file is taken twice if and only if there are at most
10 workers: from then on `gw10` has the last digit of `gw0`. -/
theorem apart_iff (n : Nat) : Apart n ↔ n ≤ 10 := by
  constructor
  · intro h
    by_contra hn
    exact h.first 0 10 (by omega) (by omega) (by omega)
      (operatorKeyFile_eq_iff.mpr (Or.inr (by omega)))
  · intro hn
    refine ⟨fun i j hi hj hne h => ?_, fun i j hi hj hne h => ?_, fun i j _ _ => ?_⟩
    · have := operatorKeyFile_eq_iff.mp h
      omega
    · have := secondOperatorKeyFile_eq_iff.mp h
      omega
    · exact operatorKeyFile_ne_second i j

/-- With 11 workers `gw0` and `gw10` share both operators. -/
theorem gw0_gw10_share :
    operatorKeyFile "gw0" = .ok "deploy/operator-keypairs/id2.json" ∧
      operatorKeyFile "gw10" = .ok "deploy/operator-keypairs/id2.json" ∧ ¬ Apart 11 := by
  have hten : operatorKeyFile (workerId 0) = operatorKeyFile (workerId 10) :=
    operatorKeyFile_eq_iff.mpr (Or.inr (by omega))
  exact ⟨by decide, by decide, fun h => h.first 0 10 (by omega) (by omega) (by omega) hten⟩

end NeonTests.Operators
