import Mathlib.Algebra.BigOperators.Ring.Finset
import NeonTests.LoadTest.Definitions

/-!
# The ledger of the load test mirrors the chain

* `buffer_mirrors_chain` — at every moment of every interleaving the balance on the chain is the
  recorded amount, corrected by what has landed and is not recorded yet.

`Mirrors` is the invariant. Its last two fields are the accounting: what every contract's
balances add up to, and how a balance differs from the recorded amount. Everything about
in-flight transfers follows from those by adding up over the accounts (`total_recorded`).
-/

namespace NeonTests.LoadTest

open Ledger Buffer

variable {A C : Type} [DecidableEq A]

/-! ## What one write does to the buffer -/

theorem contractsOf_set (buffer : Buffer A C) (account : A) (d : Dict C (Held C)) (a : A) :
    contractsOf (buffer.set account d) a = if account = a then d else buffer.contractsOf a := by
  rw [contractsOf, Dict.get?_set]
  split <;> rfl

variable [DecidableEq C]

theorem entry_put (buffer : Buffer A C) (account : A) (contract : C) (held : Held C) (a : A)
    (c : C) : (buffer.put account contract held).entry a c =
      if account = a ∧ contract = c then some held else buffer.entry a c := by
  simp only [entry, put, contractsOf_set]
  split_ifs <;> simp_all [Dict.get?_set]

theorem entry_del (buffer : Buffer A C) (account : A) (contract : C) (a : A) (c : C) :
    (buffer.del account contract).entry a c =
      if account = a ∧ contract = c then none else buffer.entry a c := by
  simp only [entry, del, contractsOf_set]
  split_ifs <;> simp_all [Dict.get?_erase]

theorem recorded_of_entry {buffer : Buffer A C} {a : A} {c : C} {held : Held C}
    (h : buffer.entry a c = some held) : buffer.recorded a c = held.amount := by
  simp [recorded, h]

theorem recorded_put (buffer : Buffer A C) (account : A) (contract : C) (held : Held C) (a : A)
    (c : C) : (buffer.put account contract held).recorded a c =
      if account = a ∧ contract = c then held.amount else buffer.recorded a c := by
  simp only [recorded, entry_put]
  split <;> rfl

/-- Every entry is under its own contract, and none is negative. -/
def Sound (buffer : Buffer A C) : Prop :=
  ∀ a c held, buffer.entry a c = some held → held.contract = c ∧ 0 ≤ held.amount

theorem Sound.put {buffer : Buffer A C} (h : Sound buffer) {account : A} {held : Held C}
    {contract : C} (hc : held.contract = contract) (hn : 0 ≤ held.amount) :
    Sound (buffer.put account contract held) := by
  intro a c held' he
  rw [entry_put] at he
  split at he
  · next heq =>
    cases he
    exact ⟨hc.trans heq.2, hn⟩
  · exact h a c held' he

theorem Sound.del {buffer : Buffer A C} (h : Sound buffer) (account : A) (contract : C) :
    Sound (buffer.del account contract) := by
  intro a c held he
  rw [entry_del] at he
  split at he
  · cases he
  · exact h a c held he

theorem Sound.recorded_nonneg {buffer : Buffer A C} (h : Sound buffer) (a : A) (c : C) :
    0 ≤ buffer.recorded a c := by
  rcases he : buffer.entry a c with _ | held
  · simp [recorded, he]
  · rw [recorded_of_entry he]
    exact (h a c held he).2

/-- The first half of `task_send_erc20` does nothing, deletes an empty entry, or submits a
transfer that the record covers. -/
theorem taskSendErc20_cases {buffer : Buffer A C} (hsound : Sound buffer) {account : A}
    {contract : C} {r : SendStart A C} (h : taskSendErc20 buffer account contract = some r) :
    r = .finished buffer ∨
    (∃ held, buffer.entry account contract = some held ∧ held.amount < 1 ∧
      r = .finished (buffer.del account contract)) ∨
    (r = .submit contract ∧ 1 ≤ buffer.recorded account contract) := by
  unfold taskSendErc20 at h
  split at h
  · exact .inl (Option.some.inj h).symm
  · rcases he : buffer.entry account contract with _ | held <;> simp only [he, reduceCtorEq] at h
    split at h
    · next hlow => exact .inr (.inl ⟨held, rfl, hlow, (Option.some.inj h).symm⟩)
    · next henough =>
      rw [(hsound account contract held he).1] at h
      refine .inr (.inr ⟨(Option.some.inj h).symm, ?_⟩)
      rw [recorded_of_entry he]
      omega

/-- The second half of `task_send_erc20` moves one token in the buffer, whoever the recipient. -/
theorem recordTransfer_spec {buffer : Buffer A C} (hsound : Sound buffer) {account : A}
    {contract : C} (h : 1 ≤ buffer.recorded account contract) (recipient : A) :
    ∃ buffer', recordTransfer buffer account recipient contract = some buffer' ∧ Sound buffer' ∧
      ∀ a c, buffer'.recorded a c + (if c = contract ∧ a = account then 1 else 0) =
        buffer.recorded a c + if c = contract ∧ a = recipient then 1 else 0 := by
  rcases he : buffer.entry account contract with _ | held
  · simp [recorded, he] at h
  · have hcontract := (hsound account contract held he).1
    have hamount := recorded_of_entry he
    obtain ⟨debited, hdebited⟩ : ∃ debited,
        buffer.put account contract { held with amount := held.amount - 1 } = debited := ⟨_, rfl⟩
    have hrec : ∀ a c, debited.recorded a c =
        if account = a ∧ contract = c then held.amount - 1 else buffer.recorded a c := by
      intro a c
      rw [← hdebited, recorded_put]
    have hsound' : Sound debited := by
      rw [← hdebited]
      exact hsound.put hcontract (show 0 ≤ held.amount - 1 by omega)
    -- the recipient's entry: what is there, or a new one of amount zero
    obtain ⟨own, hown⟩ : ∃ own, (debited.entry recipient contract).getD ⟨contract, 0⟩ = own :=
      ⟨_, rfl⟩
    have howns : own.contract = contract ∧ own.amount = debited.recorded recipient contract := by
      rcases hr : debited.entry recipient contract with _ | there
      · simp [← hown, recorded, hr]
      · rw [hr, Option.getD_some] at hown
        subst hown
        exact ⟨(hsound' _ _ _ hr).1, (recorded_of_entry hr).symm⟩
    have hnonneg := hsound'.recorded_nonneg recipient contract
    refine ⟨debited.put recipient contract { own with amount := own.amount + 1 }, ?_, ?_, ?_⟩
    · simp [recordTransfer, he, hdebited, hown]
    · exact hsound'.put howns.1 (show 0 ≤ own.amount + 1 by omega)
    · intro a c
      rw [recorded_put, hrec]
      have := hrec recipient contract
      grind

/-! ## What is in flight -/

/-- Tokens of `c` that the task's transfer has taken from its own account on the chain. -/
def Task.outgoing (c : C) : Task A C → Nat
  | .transferred contract _ => if c = contract then 1 else 0
  | _ => 0

/-- Tokens of `c` that the task's transfer has given to `a` on the chain. -/
def Task.incoming (c : C) (a : A) : Task A C → Nat
  | .transferred contract recipient => if c = contract ∧ a = recipient then 1 else 0
  | _ => 0

/-- Tokens of `c` that the task's deployment has given its own account on the chain. -/
def Task.minted (c : C) : Task A C → Nat
  | .deployed amount contract => if c = contract then amount else 0
  | _ => 0

/-- Nothing of the task has landed that is not recorded. -/
def Task.Quiet : Task A C → Prop
  | .deployed _ _ => False
  | .transferred _ _ => False
  | _ => True

theorem Task.Quiet.nothing {t : Task A C} (h : t.Quiet) (c : C) :
    t.outgoing c = 0 ∧ t.minted c = 0 ∧ ∀ a, t.incoming c a = 0 := by
  cases t <;> first | exact h.elim | exact ⟨rfl, rfl, fun _ => rfl⟩

/-- The contract that the task's transfer is of, landed or not. -/
def Task.spends : Task A C → Option C
  | .transferring contract _ => some contract
  | .transferred contract _ => some contract
  | _ => none

/-- Transfers of `c` from `a` that have landed and are not recorded; one at most. -/
def System.outgoing (s : System A C) (c : C) (a : A) : Nat := (s.task a).outgoing c

/-- What `a` got from its deployment of `c`, if that has landed and is not recorded. -/
def System.minted (s : System A C) (c : C) (a : A) : Nat := (s.task a).minted c

theorem System.outgoing_setTask (s : System A C) (account : A) (t : Task A C) (c : C) (a : A) :
    (s.setTask account t).outgoing c a = if a = account then t.outgoing c else s.outgoing c a := by
  rw [System.outgoing, setTask_task]
  split <;> rfl

theorem System.minted_setTask (s : System A C) (account : A) (t : Task A C) (c : C) (a : A) :
    (s.setTask account t).minted c a = if a = account then t.minted c else s.minted c a := by
  rw [System.minted, setTask_task]
  split <;> rfl

variable [Fintype A]

/-- Transfers of `c` to `a` that have landed and are not recorded. -/
def System.incoming (s : System A C) (c : C) (a : A) : Nat :=
  total fun b => (s.task b).incoming c a

theorem Task.total_incoming (t : Task A C) (c : C) :
    (total fun a => t.incoming c a) = t.outgoing c := by
  rcases t with _ | _ | _ | _ | ⟨contract, recipient⟩
  any_goals exact total_zero
  by_cases h : c = contract
  · simp [Task.incoming, Task.outgoing, total, h]
  · simp [Task.incoming, Task.outgoing, total, h]

/-- What has left some account has reached some account. -/
theorem System.total_incoming (s : System A C) (c : C) :
    total (s.incoming c) = total (s.outgoing c) := by
  calc total (s.incoming c)
      = ∑ b, total fun a => (s.task b).incoming c a := Finset.sum_comm
    _ = total (s.outgoing c) := Finset.sum_congr rfl fun b _ => (s.task b).total_incoming c

theorem System.incoming_setTask (s : System A C) (account : A) (t : Task A C) (c : C) (a : A) :
    (s.setTask account t).incoming c a + (s.task account).incoming c a =
      s.incoming c a + t.incoming c a := by
  have := total_update (fun b => (s.task b).incoming c a) account (t.incoming c a)
  rw [System.incoming, System.incoming, ← this]
  congr 2
  funext b
  rw [setTask_task, Function.update_apply]
  split <;> rfl

/-! ## The invariant -/

/-- What holds between the buffer, the chain and the tasks. -/
structure Mirrors (s : System A C) : Prop where
  sound : Sound s.buffer
  /-- A transfer is of a token the account has a record of. -/
  covered : ∀ a c, (s.task a).spends = some c → 1 ≤ s.buffer.recorded a c
  /-- A landed deployment is of a contract that is there. -/
  landed : ∀ a amount c, s.task a = .deployed amount c → s.deployed c = some amount
  supply : ∀ c, total (s.balances c) = (s.deployed c).getD 0
  balance : ∀ c a, (s.balances c a : Int) + s.outgoing c a =
    s.buffer.recorded a c + s.minted c a + s.incoming c a

namespace Mirrors

variable {s : System A C}

/-- What the accounts have recorded of a contract adds up to what it was deployed with, except
for a deployment that is not recorded yet. -/
theorem total_recorded (h : Mirrors s) (c : C) :
    ∑ a, s.buffer.recorded a c + total (s.minted c) = ((s.deployed c).getD 0 : Nat) := by
  have hsum : ∑ a, ((s.balances c a : Int) + s.outgoing c a) =
      ∑ a, (s.buffer.recorded a c + s.minted c a + s.incoming c a) :=
    Finset.sum_congr rfl fun a _ => h.balance c a
  have hin : (∑ a, (s.incoming c a : Int)) = ∑ a, (s.outgoing c a : Int) := by
    have := s.total_incoming c
    simp only [total] at this
    exact_mod_cast this
  simp only [Finset.sum_add_distrib] at hsum
  rw [← h.supply c, total, total]
  push_cast
  omega

/-- A deployment that is not recorded yet is of a contract nobody has a record of. -/
theorem recorded_of_landed (h : Mirrors s) {account : A} {amount : Nat} {c : C}
    (ht : s.task account = .deployed amount c) (a : A) : s.buffer.recorded a c = 0 := by
  have htotal := h.total_recorded c
  have hminted : amount ≤ total (s.minted c) := by
    have := le_total (s.minted c) account
    simpa [System.minted, ht, Task.minted] using this
  have hle : s.buffer.recorded a c ≤ ∑ a, s.buffer.recorded a c :=
    Finset.single_le_sum (fun b _ => h.sound.recorded_nonneg b c) (Finset.mem_univ a)
  have := h.sound.recorded_nonneg a c
  rw [h.landed _ _ _ ht, Option.getD_some] at htotal
  omega

/-- Where no contract is, nothing is recorded, minted or under way. -/
theorem nothing_of_not_deployed (h : Mirrors s) {c : C} (hc : s.deployed c = none) (a : A) :
    s.buffer.recorded a c = 0 ∧ s.minted c a = 0 ∧ s.incoming c a = 0 ∧ s.outgoing c a = 0 := by
  have htotal := h.total_recorded c
  rw [hc, Option.getD_none] at htotal
  have hnonneg : ∀ b, 0 ≤ s.buffer.recorded b c := fun b => h.sound.recorded_nonneg b c
  have hle : ∀ b, s.buffer.recorded b c ≤ ∑ a, s.buffer.recorded a c := fun b =>
    Finset.single_le_sum (fun b _ => hnonneg b) (Finset.mem_univ b)
  have hminted := le_total (s.minted c) a
  have hsum := Finset.sum_nonneg fun b (_ : b ∈ Finset.univ) => hnonneg b
  have hrecorded : ∀ b, s.buffer.recorded b c = 0 := by
    intro b
    have := hnonneg b
    have := hle b
    omega
  -- a task that has taken a token would have a record of it
  have hout : ∀ b, s.outgoing c b = 0 := by
    intro b
    rcases ht : s.task b with _ | _ | _ | _ | ⟨contract, recipient⟩ <;>
      simp only [System.outgoing, ht, Task.outgoing]
    by_cases heq : c = contract
    · have := h.covered b c (by simp [ht, Task.spends, heq])
      have := hrecorded b
      omega
    · simp [heq]
  have hin : total (s.incoming c) = 0 := by
    rw [s.total_incoming]
    exact Finset.sum_eq_zero fun b _ => hout b
  have := le_total (s.incoming c) a
  exact ⟨hrecorded a, by omega, by omega, hout a⟩

end Mirrors

theorem mirrors_start : Mirrors (start : System A C) where
  sound := by
    intro a c held h
    cases h
  covered := by simp [start, Task.spends]
  landed := by simp [start]
  supply := by simp [start, total_zero]
  balance := by
    intro c a
    simp [start, System.outgoing, System.minted, System.incoming, Task.outgoing, Task.minted,
      Task.incoming, total_zero, recorded, entry, contractsOf, Dict.get?, Dict.empty, Dict.lookup]

/-! ## What one task's step keeps -/

namespace Mirrors

variable {s : System A C} {account : A} {t : Task A C} {buffer : Buffer A C}
  {balances : C → A → Nat} {deployed : C → Option Nat}

/-- One user's task moves on, and with it the buffer or the chain. `haccount` is the accounting
of the step: what it changes in a balance, it changes in the records and in the tasks. -/
theorem moves (h : Mirrors s) (hsound : Sound buffer)
    (hcovered : ∀ c, t.spends = some c → 1 ≤ buffer.recorded account c)
    (hmono : ∀ a, a ≠ account → ∀ c, s.buffer.recorded a c ≤ buffer.recorded a c)
    (hlanded : ∀ amount c, t = .deployed amount c → deployed c = some amount)
    (hkept : ∀ c amount, s.deployed c = some amount → deployed c = some amount)
    (hsupply : ∀ c, total (balances c) = (deployed c).getD 0)
    (haccount : ∀ c a, (balances c a : Int) + s.buffer.recorded a c + (s.task account).incoming c a +
        (if a = account then t.outgoing c + (s.task account).minted c else 0 : Nat) =
      s.balances c a + buffer.recorded a c + t.incoming c a +
        (if a = account then (s.task account).outgoing c + t.minted c else 0 : Nat)) :
    Mirrors { s.setTask account t with buffer, balances, deployed } where
  sound := hsound
  covered := by
    intro a c hspends
    by_cases heq : a = account
    · subst heq
      exact hcovered c (by simpa using hspends)
    · have hbefore := h.covered a c (by simpa [heq] using hspends)
      exact le_trans hbefore (hmono a heq c)
  landed := by
    intro a amount c ht
    by_cases heq : a = account
    · subst heq
      exact hlanded amount c (by simpa using ht)
    · exact hkept c amount (h.landed a amount c (by simpa [heq] using ht))
  supply := hsupply
  balance := by
    intro c a
    have hbalance := h.balance c a
    have hchange := haccount c a
    have hincoming := s.incoming_setTask account t c a
    show (balances c a : Int) + (s.setTask account t).outgoing c a =
      buffer.recorded a c + (s.setTask account t).minted c a + (s.setTask account t).incoming c a
    rw [s.outgoing_setTask, s.minted_setTask]
    by_cases heq : a = account
    · subst heq
      simp only [if_true, System.outgoing, System.minted] at hbalance hchange ⊢
      omega
    · simp only [heq, if_false] at hbalance hchange ⊢
      omega

/-- A step between two moments at which the task has nothing under way. -/
theorem quiet (h : Mirrors s) (hold : (s.task account).Quiet) (hnew : t.Quiet)
    (hcovered : ∀ c, t.spends = some c → 1 ≤ s.buffer.recorded account c) :
    Mirrors (s.setTask account t) := by
  refine h.moves h.sound hcovered (fun _ _ _ => le_rfl) ?_ (fun _ _ => id) h.supply ?_
  · rintro amount c rfl
    exact hnew.elim
  · intro c a
    obtain ⟨hout, hminted, hin⟩ := hold.nothing c
    obtain ⟨hout', hminted', hin'⟩ := hnew.nothing c
    simp [hout, hminted, hin, hout', hminted', hin']

theorem idle (h : Mirrors s) (hold : (s.task account).Quiet) :
    Mirrors (s.setTask account .idle) :=
  h.quiet hold trivial (by simp [Task.spends])

theorem deployLands (h : Mirrors s) {amount : Nat} (ht : s.task account = .deploying amount)
    {contract : C} (hnew : s.deployed contract = none) :
    Mirrors { s.setTask account (.deployed amount contract) with
      balances := Function.update s.balances contract (Function.update (fun _ => 0) account amount)
      deployed := Function.update s.deployed contract (some amount) } := by
  refine h.moves h.sound (by simp [Task.spends]) (fun _ _ _ => le_rfl) ?_ ?_ ?_ ?_
  · rintro _ _ ⟨⟩
    exact Function.update_self _ _ _
  · intro c n hc
    have : c ≠ contract := by
      rintro rfl
      simp [hnew] at hc
    simpa [this] using hc
  · intro c
    by_cases hc : c = contract
    · subst hc
      have := total_update (fun _ : A => 0) account amount
      simpa [total_zero] using this
    · simpa [hc] using h.supply c
  · intro c a
    by_cases hc : c = contract
    · subst hc
      obtain ⟨hrecorded, hminted, hin, hout⟩ := h.nothing_of_not_deployed hnew a
      have hbalance := h.balance c a
      have hbefore : s.balances c a = 0 := by omega
      by_cases ha : a = account
      · subst ha
        simp [hbefore, hrecorded, ht, Task.incoming, Task.outgoing, Task.minted]
      · simp [hbefore, ha, ht, Task.incoming]
    · simp [hc, ht, Task.incoming, Task.outgoing, Task.minted]

theorem deployReturns (h : Mirrors s) {amount : Nat} {contract : C}
    (ht : s.task account = .deployed amount contract) :
    Mirrors { s.setTask account .idle with
      buffer := s.buffer.put account contract ⟨contract, amount⟩ } := by
  have hzero := h.recorded_of_landed ht account
  refine h.moves (h.sound.put rfl (Int.natCast_nonneg amount)) (by simp [Task.spends]) ?_
    (by simp) (fun _ _ => id) h.supply ?_
  · intro a ha c
    rw [recorded_put, if_neg fun heq => ha heq.1.symm]
  · intro c a
    rw [recorded_put]
    by_cases hc : contract = c
    · subst hc
      by_cases ha : account = a
      · subst ha
        simp [ht, hzero, Task.incoming, Task.outgoing, Task.minted]
      · simp [ht, ha, Ne.symm ha, Task.incoming]
    · simp [ht, hc, Ne.symm hc, Task.incoming, Task.outgoing, Task.minted]

/-- An entry is deleted only at zero, which is what its absence stands for. -/
theorem deletes (h : Mirrors s) {contract : C} {held : Held C}
    (he : s.buffer.entry account contract = some held) (hlow : held.amount < 1) :
    Mirrors { s with buffer := s.buffer.del account contract } := by
  have hzero : s.buffer.recorded account contract = 0 := by
    have := (h.sound account contract held he).2
    rw [recorded_of_entry he]
    omega
  have hsame : ∀ a c, (s.buffer.del account contract).recorded a c = s.buffer.recorded a c := by
    intro a c
    rw [recorded, entry_del]
    split
    · next heq =>
      rw [← heq.1, ← heq.2, hzero]
      rfl
    · rfl
  exact {
    sound := h.sound.del account contract
    covered := fun a c hspends => by rw [hsame]; exact h.covered a c hspends
    landed := h.landed
    supply := h.supply
    balance := fun c a => by rw [hsame]; exact h.balance c a }

/-- The sender's record is at least one, and so is its balance: the transfer can land. -/
theorem balance_pos (h : Mirrors s) {c : C} {recipient : A}
    (ht : s.task account = .transferring c recipient) : 0 < s.balances c account := by
  have hcovered := h.covered account c (by simp [ht, Task.spends])
  have hbalance := h.balance c account
  have hout : s.outgoing c account = 0 := by simp [System.outgoing, ht, Task.outgoing]
  omega

theorem transferLands (h : Mirrors s) {contract : C} {recipient : A}
    (ht : s.task account = .transferring contract recipient) :
    Mirrors { s.setTask account (.transferred contract recipient) with
      balances := Function.update s.balances contract
        (transfer (s.balances contract) account recipient 1) } := by
  have hpos : 1 ≤ s.balances contract account := h.balance_pos ht
  refine h.moves h.sound ?_ (fun _ _ _ => le_rfl) (by simp) (fun _ _ => id) ?_ ?_
  · intro c hc
    exact h.covered account c (by simpa [ht, Task.spends] using hc)
  · intro c
    by_cases hc : c = contract
    · subst hc
      simpa [total_transfer hpos] using h.supply c
    · simpa [hc] using h.supply c
  · intro c a
    by_cases hc : c = contract
    · subst hc
      have hmove := transfer_apply hpos recipient a
      simp only [ht, setTask_buffer, Function.update_self, Task.incoming, Task.outgoing,
        Task.minted, true_and, if_true]
      split_ifs at hmove ⊢ <;> omega
    · simp [ht, hc, Task.incoming, Task.outgoing, Task.minted]

theorem transferReturns (h : Mirrors s) {contract : C} {recipient : A}
    (ht : s.task account = .transferred contract recipient) :
    ∃ buffer, recordTransfer s.buffer account recipient contract = some buffer ∧
      Mirrors { s.setTask account .idle with buffer } := by
  have hcovered := h.covered account contract (by simp [ht, Task.spends])
  obtain ⟨buffer, hbuffer, hsound, hmoved⟩ := recordTransfer_spec h.sound hcovered recipient
  refine ⟨buffer, hbuffer, h.moves hsound (by simp [Task.spends]) ?_ (by simp) (fun _ _ => id)
    h.supply ?_⟩
  · intro a ha c
    have := hmoved a c
    simp only [ha, and_false, if_false] at this
    split at this <;> omega
  · intro c a
    have hmove := hmoved a c
    by_cases hc : c = contract
    · by_cases ha : a = account <;> by_cases hr : a = recipient <;>
        simp [ht, hc, ha, hr, Task.incoming, Task.outgoing, Task.minted] at hmove ⊢ <;> omega
    · simp [hc] at hmove
      simp [ht, hc, hmove, Task.incoming, Task.outgoing, Task.minted]

end Mirrors

theorem mirrors_step {s s' : System A C} {e : Event A C} (h : Mirrors s)
    (hstep : step s e = some s') : Mirrors s' := by
  cases e with
  | taskDeployContract account amount =>
    rcases ht : s.task account with _ | _ | _ | _ | _ <;> simp [step, ht] at hstep
    rw [← hstep.2]
    exact h.quiet (by simp [ht, Task.Quiet]) trivial (by simp [Task.spends])
  | deployLands account contract =>
    rcases ht : s.task account with _ | amount | _ | _ | _ <;> simp [step, ht] at hstep
    rw [← hstep.2]
    exact h.deployLands ht hstep.1
  | deployFails account =>
    rcases ht : s.task account with _ | _ | _ | _ | _ <;> simp [step, ht] at hstep
    rw [← hstep]
    exact h.idle (by simp [ht, Task.Quiet])
  | deployReturns account =>
    rcases ht : s.task account with _ | _ | ⟨amount, contract⟩ | _ | _ <;> simp [step, ht] at hstep
    rw [← hstep]
    exact h.deployReturns ht
  | taskSendErc20 account contract recipient =>
    rcases ht : s.task account with _ | _ | _ | _ | _ <;> simp only [step, ht, reduceCtorEq] at hstep
    rcases hr : taskSendErc20 s.buffer account contract with _ | r <;>
      simp only [hr, reduceCtorEq] at hstep
    rcases taskSendErc20_cases h.sound hr with rfl | ⟨held, he, hlow, rfl⟩ | ⟨rfl, hcovered⟩
    · cases hstep
      exact h
    · cases hstep
      exact h.deletes he hlow
    · cases hstep
      refine h.quiet (by simp [ht, Task.Quiet]) trivial ?_
      rintro c ⟨⟩
      exact hcovered
  | transferLands account =>
    rcases ht : s.task account with _ | _ | _ | ⟨contract, recipient⟩ | _ <;>
      simp [step, ht] at hstep
    rw [← hstep.2]
    exact h.transferLands ht
  | transferFails account =>
    rcases ht : s.task account with _ | _ | _ | _ | _ <;> simp [step, ht] at hstep
    rw [← hstep]
    exact h.idle (by simp [ht, Task.Quiet])
  | transferReturns account =>
    rcases ht : s.task account with _ | _ | _ | _ | ⟨contract, recipient⟩ <;>
      simp only [step, ht, reduceCtorEq] at hstep
    obtain ⟨buffer, hbuffer, hmirrors⟩ := h.transferReturns ht
    rw [hbuffer] at hstep
    cases hstep
    exact hmirrors

/-- **The ledger mirrors the chain.** In every interleaving of the users' tasks, at every moment:
a balance is the recorded amount plus what has come in, minus what has gone out, and plus what
the account's own deployment has minted, where that has landed and is not recorded yet; no
recorded amount is negative; a transfer is only submitted from a balance; and what is recorded
of a contract adds up to what it was deployed with, from the recording of its deployment on. -/
theorem buffer_mirrors_chain (es : List (Event A C)) : ∀ s ∈ Runs.states step start es,
    (∀ c a, (s.balances c a : Int) =
      s.buffer.recorded a c + s.incoming c a - s.outgoing c a + s.minted c a) ∧
    (∀ a c held, s.buffer.entry a c = some held → 0 ≤ held.amount) ∧
    (∀ a c recipient, s.task a = .transferring c recipient → 0 < s.balances c a) ∧
    ∀ c amount, s.deployed c = some amount → (∀ a m, s.task a ≠ .deployed m c) →
      ∑ a, s.buffer.recorded a c = amount := by
  intro s hs
  have h : Mirrors s := Runs.states_induction Mirrors mirrors_start
    (fun _ _ _ h _ hstep => mirrors_step h hstep) Runs.steps_true s hs
  refine ⟨?_, fun a c held he => (h.sound a c held he).2, fun a c _ ht => h.balance_pos ht, ?_⟩
  · intro c a
    have := h.balance c a
    omega
  · intro c amount hdeployed hrecorded
    have htotal := h.total_recorded c
    have hminted : total (s.minted c) = 0 := by
      refine Finset.sum_eq_zero fun a _ => ?_
      rcases ht : s.task a with _ | _ | ⟨m, contract⟩ | _ | _ <;>
        simp only [System.minted, ht, Task.minted]
      by_cases hc : c = contract
      · subst hc
        exact (hrecorded a m ht).elim
      · simp [hc]
    simpa [hdeployed, hminted] using htotal

/-- The account `true` has deployed a contract and sends a token to itself; `false` sends it
nothing. -/
def sampleEvents : List (Event Bool Nat) := [
  .taskDeployContract true (10 ^ 15), .deployLands true 0, .deployReturns true,
  .taskSendErc20 false 0 true, .taskSendErc20 true 0 true, .transferLands true]

def sampleState : System Bool Nat := (Runs.run step start sampleEvents).getD start

theorem buffer_mirrors_chain_sample :
    (∀ c a, (sampleState.balances c a : Int) = sampleState.buffer.recorded a c +
      sampleState.incoming c a - sampleState.outgoing c a + sampleState.minted c a) ∧
    (∀ a c held, sampleState.buffer.entry a c = some held → 0 ≤ held.amount) ∧
    (∀ a c recipient, sampleState.task a = .transferring c recipient →
      0 < sampleState.balances c a) ∧
    ∀ c amount, sampleState.deployed c = some amount →
      (∀ a m, sampleState.task a ≠ .deployed m c) →
        ∑ a, sampleState.buffer.recorded a c = amount :=
  buffer_mirrors_chain sampleEvents sampleState (by
    iterate 6 apply List.mem_cons_of_mem
    exact List.mem_singleton_self _)

/-- A deployment that has landed and not returned: the deployer has a balance and no record. -/
theorem deployment_not_recorded :
    ¬ ∀ es : List (Event Bool Nat), ∀ s ∈ Runs.states step start es,
      (∀ c a, (s.balances c a : Int) =
        s.buffer.recorded a c + s.incoming c a - s.outgoing c a) ∧
      ∀ c amount, s.deployed c = some amount → (∀ a r, s.task a ≠ .transferring c r) →
        (∀ a r, s.task a ≠ .transferred c r) → ∑ a, s.buffer.recorded a c = amount := by
  intro h
  have hs := h [.taskDeployContract true (10 ^ 15), .deployLands true 0] _
    (List.mem_cons_of_mem _ (List.mem_cons_of_mem _ List.mem_cons_self))
  have := hs.1 0 true
  revert this
  decide

end NeonTests.LoadTest
