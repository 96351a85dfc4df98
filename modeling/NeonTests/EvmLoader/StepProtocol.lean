import NeonTests.EvmLoader.Definitions

/-!
# Iterative execution — the step protocol

The three drivers submit the steps 0, 1, 2, ... until a receipt has an error or a line in its
log that decides, and end as that receipt says. An index has four bytes: where no receipt decides
before, the step with index 2^32 cannot be written any more.

* `EndsWith` — what a receipt means for a driver, in terms of its error and its log;
* `followsProtocol_of_poll` — what follows for a loop that sends a step for every index;
* `drivers_follow_protocol` — the protocol, for every stream of receipts.
-/

namespace NeonTests.EvmLoader

open Endian Fallible Polling Python Scripts Solana Text

-- ---------------------------------------------------------------------------
-- The protocol
-- ---------------------------------------------------------------------------

/-- A line that decides. -/
def Decides (log : String) : Prop := contains log "exit_status" ∨ contains log "ExitError"

instance (log : String) : Decidable (Decides log) := inferInstanceAs (Decidable (_ ∨ _))

/-- A receipt that ends the execution. -/
def Receipt.Stops (r : Receipt) : Prop := r.err ≠ none ∨ ∃ log ∈ r.logMessages, Decides log

/-- The first line that decides is an `ExitError`, and no exit status. -/
def Receipt.EvmFailed (r : Receipt) : Prop :=
  ∃ before log after, r.logMessages = before ++ log :: after ∧ (∀ l ∈ before, ¬ Decides l) ∧
    contains log "ExitError" ∧ ¬ contains log "exit_status"

/-- How an execution ends with a receipt that stops it: `failed` begins the text of a failed
transaction. -/
inductive EndsWith (receiptText : Receipt → String) (failed : String) (r : Receipt) :
    Except PyError Receipt → Prop
  | failed {err : String} (h : r.err = some err) :
      EndsWith receiptText failed r (.error (.assertion (failed ++ err)))
  | evmFailed (h : r.err = none) (hlog : r.EvmFailed) :
      EndsWith receiptText failed r
        (.error (.assertion ("EVM Return error in logs: " ++ receiptText r)))
  | done (h : r.err = none) (hlog : ¬ r.EvmFailed) : EndsWith receiptText failed r (.ok r)

/-- The index in a step's data: behind the tag, the treasury's bytes and the step count. -/
def stepIndex (treasury : TreasuryPool) (sent : Submission) : Option Nat :=
  sent.trx.instructions.getLast?.map fun ix =>
    leNat ((ix.data.drop (1 + treasury.buffer.length + 4)).take 4)

/-- A run of a driver that follows the protocol, the receipts being `receipts`. -/
structure FollowsProtocol (loader : Loader) (treasury : TreasuryPool) (failed : String)
    (driver : (fuel : Nat) → Run Receipt) : Prop where
  /-- it stops with the first receipt that stops it, having sent each step up to it once -/
  stops : ∀ k < 2 ^ 32, (loader.receipts k).Stops → (∀ i < k, ¬ (loader.receipts i).Stops) →
    ∃ outcome sent, EndsWith loader.receiptText failed (loader.receipts k) outcome ∧
      sent.map (stepIndex treasury) = (List.range (k + 1)).map some ∧
      ∀ fuel, k < fuel → exec (driver fuel) [] = (outcome, sent)
  /-- without one it goes on as long as an index can be written -/
  goesOn : ∀ n ≤ 2 ^ 32, (∀ i < n, ¬ (loader.receipts i).Stops) →
    ∃ sent, sent.map (stepIndex treasury) = (List.range n).map some ∧
      exec (driver n) [] = (.error .recursionError, sent) ∧
      (n = 2 ^ 32 → ∀ fuel, n < fuel → exec (driver fuel) [] = (.error .overflowError, sent))

-- ---------------------------------------------------------------------------
-- One receipt
-- ---------------------------------------------------------------------------

section

variable {loader : Loader} {failed : String} {r : Receipt}

/-- What a receipt is taken for. -/
def settle (loader : Loader) (failed : String) : Settle PyError Receipt Receipt := fun receipt =>
  match receipt.err with
  | some err => .error (.assertion (failed ++ err))
  | none =>
    match loader.scanLogs receipt receipt.logMessages with
    | .error e => .error e
    | .ok true => .ok (some receipt)
    | .ok false => .ok none

theorem scanLogs_open {logs : List String} (h : ∀ log ∈ logs, ¬ Decides log) :
    loader.scanLogs r logs = .ok false := by
  induction logs with
  | nil => rfl
  | cons log logs ih =>
    obtain ⟨hstatus, herror⟩ := not_or.mp (h log List.mem_cons_self)
    rw [Loader.scanLogs, if_neg hstatus, if_neg herror,
      ih fun l hl => h l (List.mem_cons_of_mem log hl)]

/-- Only the first line that decides matters. -/
theorem scanLogs_first {before after : List String} {log : String}
    (hbefore : ∀ l ∈ before, ¬ Decides l) (hlog : Decides log) :
    loader.scanLogs r (before ++ log :: after) =
      if contains log "exit_status" then .ok true
      else .error (.assertion ("EVM Return error in logs: " ++ loader.receiptText r)) := by
  induction before with
  | nil =>
    rw [List.nil_append, Loader.scanLogs]
    by_cases hstatus : contains log "exit_status" = true
    · rw [if_pos hstatus, if_pos hstatus]
      rfl
    · rw [if_neg hstatus, if_neg hstatus, if_pos (hlog.resolve_left hstatus)]
      rfl
  | cons l before ih =>
    obtain ⟨hstatus, herror⟩ := not_or.mp (hbefore l List.mem_cons_self)
    rw [List.cons_append, Loader.scanLogs, if_neg hstatus, if_neg herror,
      ih fun l' hl' => hbefore l' (List.mem_cons_of_mem l hl')]

theorem settle_open (h : ¬ r.Stops) : settle loader failed r = .ok none := by
  obtain ⟨herr, hlogs⟩ := not_or.mp h
  rw [settle, not_not.mp herr]
  dsimp only
  rw [scanLogs_open fun log hlog hdecides => hlogs ⟨log, hlog, hdecides⟩]

/-- The first line that decides, and what comes before it. -/
theorem find?_eq_first {logs : List String} {log : String} :
    logs.find? (Decides ·) = some log ↔
      ∃ before after, logs = before ++ log :: after ∧ (∀ l ∈ before, ¬ Decides l) ∧
        Decides log := by
  rw [List.find?_eq_some_iff_append]
  simp only [decide_eq_true_eq, Bool.not_eq_true', decide_eq_false_iff_not]
  constructor
  · rintro ⟨hlog, before, after, hlogs, hbefore⟩
    exact ⟨before, after, hlogs, hbefore, hlog⟩
  · rintro ⟨before, after, hlogs, hbefore, hlog⟩
    exact ⟨hlog, before, after, hlogs, hbefore⟩

/-- A receipt that stops settles the outcome. -/
theorem settle_stops (loader : Loader) (failed : String) (h : r.Stops) : ∃ outcome, EndsWith loader.receiptText failed r outcome ∧
    settle loader failed r = outcome.map some := by
  cases herr : r.err with
  | some err =>
    refine ⟨_, .failed herr, ?_⟩
    rw [settle, herr]
    rfl
  | none =>
    obtain ⟨log, hfirst⟩ : ∃ log, r.logMessages.find? (Decides ·) = some log := by
      rw [← Option.isSome_iff_exists, List.find?_isSome]
      simpa using h.resolve_left (not_not.mpr herr)
    obtain ⟨before, after, hlogs, hbefore, hlog⟩ := find?_eq_first.mp hfirst
    have hscan : loader.scanLogs r r.logMessages = if contains log "exit_status" then .ok true
        else .error (.assertion ("EVM Return error in logs: " ++ loader.receiptText r)) := by
      rw [hlogs, scanLogs_first hbefore hlog]
    by_cases hstatus : contains log "exit_status" = true
    · refine ⟨_, .done herr ?_, ?_⟩
      · rintro ⟨before', log', after', hlogs', hbefore', herror', hstatus'⟩
        have hfirst' := find?_eq_first.mpr ⟨before', after', hlogs', hbefore', .inr herror'⟩
        obtain rfl : log = log' := Option.some.inj (hfirst.symm.trans hfirst')
        exact hstatus' hstatus
      · rw [settle, herr]
        dsimp only
        rw [hscan, if_pos hstatus]
        rfl
    · refine ⟨_, .evmFailed herr ⟨before, log, after, hlogs, hbefore, hlog.resolve_left hstatus,
        hstatus⟩, ?_⟩
      rw [settle, herr]
      dsimp only
      rw [hscan, if_neg hstatus]
      rfl

end

-- ---------------------------------------------------------------------------
-- One step
-- ---------------------------------------------------------------------------

section

variable {loader : Loader} {operator signer : Keypair} {operatorBalance storageAccount : Pubkey}
  {treasury : TreasuryPool} {additionalAccounts : List Pubkey} {price : Option Int}

/-- A step's instruction: `rest` is the transaction, where it is sent along. -/
def stepInstruction (loader : Loader) (operator : Keypair) (operatorBalance : Pubkey)
    (treasury : TreasuryPool) (storageAccount : Pubkey) (additionalAccounts : List Pubkey)
    (tag : UInt8) (rest : Bytes) (index : Nat) : Instruction where
  programId := loader.loaderId
  data := [tag] ++ treasury.buffer ++ leBytes 4 500 ++ leBytes 4 index ++ rest
  accounts := stepAccounts operator operatorBalance storageAccount treasury additionalAccounts

theorem stepIndex_add (trx : Transaction) (tag : UInt8) (rest : Bytes) {index : Nat}
    (h : index < 2 ^ 32) :
    stepIndex treasury ⟨trx.add (stepInstruction loader operator operatorBalance treasury
      storageAccount additionalAccounts tag rest index), signer⟩ = some index := by
  have hdata : [tag] ++ treasury.buffer ++ leBytes 4 500 ++ leBytes 4 index ++ rest =
      ([tag] ++ treasury.buffer ++ leBytes 4 500) ++ (leBytes 4 index ++ rest) := by
    rw [List.append_assoc]
  have hlen : 1 + treasury.buffer.length + 4 =
      ([tag] ++ treasury.buffer ++ leBytes 4 500).length := by
    rw [List.length_append, List.length_append, length_leBytes, List.length_singleton]
  simp only [stepIndex, Transaction.add, stepInstruction, List.getLast?_concat, Option.map_some]
  rw [hdata, hlen, List.drop_left, List.take_left' (length_leBytes 4 index),
    leNat_leBytes (by omega)]

/-- A price that is written in eight bytes. -/
def PriceFits (price : Option Int) : Prop := ∀ p ∈ price, 0 ≤ p ∧ p < 2 ^ 64

theorem transactionWithComputeBudget_returns (operator : Keypair) (h : PriceFits price) :
    ∃ trx, transactionWithComputeBudget operator price = .ok trx := by
  cases price with
  | none => exact ⟨_, rfl⟩
  | some p =>
    obtain ⟨hlow, hhigh⟩ := h p rfl
    have hbytes : toBytesLittle p 8 = .ok (leBytes 8 p.toNat) := by
      rw [toBytesLittle, if_pos ⟨hlow, by omega⟩]
    by_cases hp : p = 0
    · subst hp
      exact ⟨_, rfl⟩
    · refine ⟨((Transaction.new.add (computeBudget operator (0x02 :: leBytes 4 1400000))).add
        (computeBudget operator (0x01 :: leBytes 4 (256 * 1024)))).add
        (computeBudget operator (0x03 :: leBytes 8 p.toNat)), ?_⟩
      simp only [transactionWithComputeBudget, setComputeUnitsPrice, hbytes, if_neg hp]
      rfl

theorem makePartialCall_of_lt (instruction : Bytes) {index : Nat} (h : index < 2 ^ 32) :
    makePartialCallOrContinueFromRawEthereumTX index Loader.evmSteps instruction operator
      operatorBalance loader.loaderId storageAccount treasury additionalAccounts 0x34 =
    .ok (stepInstruction loader operator operatorBalance treasury storageAccount
      additionalAccounts 0x34 instruction index) := by
  rw [makePartialCallOrContinueFromRawEthereumTX, toBytesLittle_natCast (by omega)]
  rfl

theorem makeExecuteTrx_of_lt {tag : Nat} (htag : tag < 256) {index : Nat} (h : index < 2 ^ 32) :
    makeExecuteTrxFromAccountDataIterativeOrContinue index Loader.evmSteps operator
      operatorBalance loader.loaderId storageAccount treasury additionalAccounts tag =
    .ok (stepInstruction loader operator operatorBalance treasury storageAccount
      additionalAccounts (.ofNat tag) [] index) := by
  have hone : leBytes 1 tag = [UInt8.ofNat tag] := by
    rw [leBytes, Nat.mod_eq_of_lt htag]
    rfl
  rw [makeExecuteTrxFromAccountDataIterativeOrContinue, toBytesLittle_natCast (by omega),
    toBytesLittle_natCast (by omega), hone, stepInstruction, List.append_nil]
  rfl

/-- The first index that has no four bytes. -/
theorem toBytesLittle_overflow : toBytesLittle ((2 ^ 32 : Nat) : Int) 4 = .error .overflowError := by
  rw [toBytesLittle, if_neg (by simp)]

variable {trx : Transaction}

theorem exec_sendFromInstruction (htrx : transactionWithComputeBudget operator none = .ok trx)
    (instruction : Bytes) {index : Nat} (h : index < 2 ^ 32) (sent : List Submission) :
    exec (loader.sendTransactionStepFromInstruction operator operatorBalance treasury
      storageAccount instruction additionalAccounts Loader.evmSteps signer index) sent =
    (.ok (loader.receipts sent.length), sent ++ [⟨trx.add (stepInstruction loader operator
      operatorBalance treasury storageAccount additionalAccounts 0x34 instruction index),
      signer⟩]) := by
  rw [Loader.sendTransactionStepFromInstruction, exec_bind, exec_liftM, htrx]
  dsimp only
  rw [exec_bind, exec_liftM, makePartialCall_of_lt instruction h]
  rfl

theorem exec_sendFromInstruction_overflow
    (htrx : transactionWithComputeBudget operator none = .ok trx) (instruction : Bytes)
    (sent : List Submission) :
    exec (loader.sendTransactionStepFromInstruction operator operatorBalance treasury
      storageAccount instruction additionalAccounts Loader.evmSteps signer (2 ^ 32 : Nat)) sent =
    (.error .overflowError, sent) := by
  rw [Loader.sendTransactionStepFromInstruction, exec_bind, exec_liftM, htrx]
  dsimp only
  rw [exec_bind, exec_liftM, makePartialCallOrContinueFromRawEthereumTX, toBytesLittle_overflow]
  rfl

theorem exec_sendFromAccount (htrx : transactionWithComputeBudget operator price = .ok trx)
    {tag : Nat} (htag : tag < 256) {index : Nat} (h : index < 2 ^ 32) (sent : List Submission) :
    exec (loader.sendTransactionStepFromAccount operator operatorBalance treasury
      storageAccount additionalAccounts Loader.evmSteps signer price tag index) sent =
    (.ok (loader.receipts sent.length), sent ++ [⟨trx.add (stepInstruction loader operator
      operatorBalance treasury storageAccount additionalAccounts (.ofNat tag) [] index),
      signer⟩]) := by
  rw [Loader.sendTransactionStepFromAccount, exec_bind, exec_liftM, htrx]
  dsimp only
  rw [exec_bind, exec_liftM, makeExecuteTrx_of_lt htag h]
  rfl

theorem exec_sendFromAccount_overflow
    (htrx : transactionWithComputeBudget operator price = .ok trx) {tag : Nat} (htag : tag < 256)
    (sent : List Submission) :
    exec (loader.sendTransactionStepFromAccount operator operatorBalance treasury
      storageAccount additionalAccounts Loader.evmSteps signer price tag (2 ^ 32 : Nat)) sent =
    (.error .overflowError, sent) := by
  rw [Loader.sendTransactionStepFromAccount, exec_bind, exec_liftM, htrx]
  dsimp only
  rw [exec_bind, exec_liftM, makeExecuteTrxFromAccountDataIterativeOrContinue,
    toBytesLittle_natCast (by omega), toBytesLittle_overflow]
  rfl

-- ---------------------------------------------------------------------------
-- The loops
-- ---------------------------------------------------------------------------

/-- The rest of a round, after the receipt. -/
theorem exec_round {failed : String} {go : Run Receipt} (receipt : Receipt)
    (sent : List Submission) :
    exec (match receipt.err with
      | some err => fail (.assertion (failed ++ err))
      | none => do
        let done ← liftM (loader.scanLogs receipt receipt.logMessages)
        if done then return receipt else go : Run Receipt) sent =
    match settle loader failed receipt with
    | .error e => (.error e, sent)
    | .ok (some result) => (.ok result, sent)
    | .ok none => exec go sent := by
  rw [settle]
  cases receipt.err with
  | some err => rfl
  | none =>
    dsimp only
    rw [exec_bind, exec_liftM]
    rcases loader.scanLogs receipt receipt.logMessages with _ | _ | _ <;> rfl

/-- A loop whose rounds are so is a poll. -/
theorem exec_eq_poll {loop : Nat → Nat → Run Receipt} {send : Nat → Run Receipt}
    {failed : String} (hempty : ∀ index, loop 0 index = fail .recursionError)
    (hround : ∀ fuel index, loop (fuel + 1) index = do
      let receipt ← send index
      match receipt.err with
      | some err => fail (.assertion (failed ++ err))
      | none =>
        let done ← liftM (loader.scanLogs receipt receipt.logMessages)
        if done then return receipt else loop fuel (index + 1))
    (fuel index : Nat) (sent : List Submission) :
    exec (loop fuel index) sent =
      exec (poll send (settle loader failed) .recursionError fuel index) sent := by
  induction fuel generalizing index sent with
  | zero =>
    rw [hempty]
    rfl
  | succ fuel ih =>
    rw [hround, exec_bind, exec_poll_succ]
    rcases exec (send index) sent with ⟨e | receipt, sent'⟩
    · rfl
    · dsimp only
      rw [exec_round, ih]
      rcases settle loader failed receipt with _ | _ | _ <;> rfl

/-- A driver that polls for receipts, writing the indices that have four bytes, follows the
protocol. -/
theorem followsProtocol_of_poll {failed : String} {send : Nat → Run Receipt}
    {driver : Nat → Run Receipt} {submission : Nat → Submission}
    (hdriver : ∀ fuel, exec (driver fuel) [] =
      exec (poll send (settle loader failed) .recursionError fuel 0) [])
    (hsend : ∀ i < 2 ^ 32, ∀ sent, exec (send i) sent =
      (.ok (loader.receipts sent.length), sent ++ [submission i]))
    (hoverflow : ∀ sent, exec (send (2 ^ 32)) sent = (.error .overflowError, sent))
    (hindex : ∀ i < 2 ^ 32, stepIndex treasury (submission i) = some i) :
    FollowsProtocol loader treasury failed driver := by
  have hasks : ∀ n ≤ 2 ^ 32, Asks send loader.receipts
      (fun i => (List.range i).map submission) n := by
    intro n hn i hi
    dsimp only
    rw [hsend i (by omega), List.length_map, List.length_range, List.range_succ, List.map_append]
    rfl
  have hindices : ∀ n ≤ 2 ^ 32, ((List.range n).map submission).map (stepIndex treasury) =
      (List.range n).map some := by
    intro n hn
    rw [List.map_map]
    refine List.map_congr_left fun i hi => hindex i ?_
    have := List.mem_range.mp hi
    omega
  constructor
  · intro k hk hstops hopen
    obtain ⟨outcome, hends, hsettle⟩ := settle_stops loader failed hstops
    refine ⟨outcome, (List.range (k + 1)).map submission, hends, hindices (k + 1) hk, ?_⟩
    intro fuel hfuel
    rw [hdriver]
    exact exec_poll_of_settled (hasks (k + 1) hk) (fun i hi => settle_open (hopen i hi)) hsettle hfuel
  · intro n hn hopen
    have hopen' : ∀ i < n, settle loader failed (loader.receipts i) = .ok none :=
      fun i hi => settle_open (hopen i hi)
    refine ⟨(List.range n).map submission, hindices n hn, ?_, ?_⟩
    · rw [hdriver]
      exact exec_poll_exhausted (hasks n hn) hopen'
    · rintro rfl fuel hfuel
      rw [hdriver]
      exact exec_poll_of_failed (hasks _ le_rfl) hopen' (hoverflow _) hfuel

end

-- ---------------------------------------------------------------------------
-- The drivers
-- ---------------------------------------------------------------------------

/-- The same result, or a failed assertion for both. -/
inductive SameOutcome : Except PyError Receipt → Except PyError Receipt → Prop
  | same (outcome : Except PyError Receipt) : SameOutcome outcome outcome
  | assertions (text text' : String) :
      SameOutcome (.error (.assertion text)) (.error (.assertion text'))

theorem sameOutcome_of_endsWith {receiptText : Receipt → String} {failed failed' : String}
    {r : Receipt} {x y : Except PyError Receipt} (hx : EndsWith receiptText failed r x)
    (hy : EndsWith receiptText failed' r y) : SameOutcome x y := by
  cases hx with
  | failed h =>
    cases hy with
    | failed _ => exact .assertions _ _
    | evmFailed h' _ => rw [h] at h'; cases h'
    | done h' _ => rw [h] at h'; cases h'
  | evmFailed h hlog =>
    cases hy with
    | failed h' => rw [h] at h'; cases h'
    | evmFailed _ _ => exact .same _
    | done _ hlog' => exact absurd hlog hlog'
  | done h hlog =>
    cases hy with
    | failed h' => rw [h] at h'; cases h'
    | evmFailed _ hlog' => exact absurd hlog' hlog
    | done _ _ => exact .same _

/-- The same indices and the same outcome. -/
def SameCourse (treasury : TreasuryPool) (x y : Except PyError Receipt × List Submission) : Prop :=
  x.2.map (stepIndex treasury) = y.2.map (stepIndex treasury) ∧ SameOutcome x.1 y.1

/-- Two drivers that follow the protocol take the same course. -/
theorem sameCourse_of_followsProtocol {loader : Loader} {treasury : TreasuryPool}
    {failed failed' : String} {driver driver' : Nat → Run Receipt}
    (h : FollowsProtocol loader treasury failed driver)
    (h' : FollowsProtocol loader treasury failed' driver') (fuel : Nat) :
    SameCourse treasury (exec (driver fuel) []) (exec (driver' fuel) []) := by
  classical
  by_cases hstop : ∃ k, k < 2 ^ 32 ∧ k < fuel ∧ (loader.receipts k).Stops
  · -- the first receipt that stops
    obtain ⟨hk, hfuel, hstops⟩ := Nat.find_spec hstop
    have hopen : ∀ i < Nat.find hstop, ¬ (loader.receipts i).Stops := fun i hi hi' =>
      Nat.find_min hstop hi ⟨by omega, by omega, hi'⟩
    obtain ⟨outcome, sent, hends, hindices, hrun⟩ := h.stops _ hk hstops hopen
    obtain ⟨outcome', sent', hends', hindices', hrun'⟩ := h'.stops _ hk hstops hopen
    rw [hrun fuel hfuel, hrun' fuel hfuel]
    exact ⟨hindices.trans hindices'.symm, sameOutcome_of_endsWith hends hends'⟩
  · have hopen : ∀ i < min fuel (2 ^ 32), ¬ (loader.receipts i).Stops := fun i hi hi' =>
      hstop ⟨i, by omega, by omega, hi'⟩
    obtain ⟨sent, hindices, hrun, hoverflow⟩ := h.goesOn _ (Nat.min_le_right _ _) hopen
    obtain ⟨sent', hindices', hrun', hoverflow'⟩ := h'.goesOn _ (Nat.min_le_right _ _) hopen
    rcases Nat.lt_or_ge (2 ^ 32) fuel with hlt | hle
    · rw [Nat.min_eq_right hlt.le] at hoverflow hoverflow'
      rw [hoverflow rfl fuel hlt, hoverflow' rfl fuel hlt]
      exact ⟨hindices.trans hindices'.symm, .same _⟩
    · rw [Nat.min_eq_left hle] at hrun hrun' hindices hindices'
      rw [hrun, hrun']
      exact ⟨hindices.trans hindices'.symm, .same _⟩

section

variable (loader : Loader) (operator : Keypair) (treasury : TreasuryPool)
  (storageAccount : Pubkey) (additionalAccounts : List Pubkey) (signer : Option Keypair)

theorem followsProtocol_fromInstruction (instruction : Bytes) :
    FollowsProtocol loader treasury "Transaction failed with error: "
      (loader.executeTransactionStepsFromInstruction operator treasury storageAccount instruction
        additionalAccounts signer) := by
  have hnone : PriceFits none := fun p hp => by cases hp
  obtain ⟨trx, htrx⟩ := transactionWithComputeBudget_returns operator hnone
  exact followsProtocol_of_poll
    (fun fuel => exec_eq_poll (fun _ => rfl) (fun _ _ => rfl) fuel 0 [])
    (fun i hi => exec_sendFromInstruction htrx instruction hi)
    (exec_sendFromInstruction_overflow htrx instruction)
    (fun i hi => stepIndex_add trx 0x34 instruction hi)

theorem followsProtocol_fromAccount {price : Option Int} (hprice : PriceFits price) :
    FollowsProtocol loader treasury "Can't deploy contract: "
      (loader.executeTransactionStepsFromAccount operator treasury storageAccount
        additionalAccounts signer price) := by
  obtain ⟨trx, htrx⟩ := transactionWithComputeBudget_returns operator hprice
  have htag : 0x35 < 256 := by omega
  exact followsProtocol_of_poll
    (fun fuel => exec_eq_poll (fun _ => rfl) (fun _ _ => rfl) fuel 0 [])
    (fun i hi => exec_sendFromAccount htrx htag hi)
    (exec_sendFromAccount_overflow htrx htag)
    (fun i hi => stepIndex_add trx _ [] hi)

theorem followsProtocol_fromAccountNoChainId :
    FollowsProtocol loader treasury "Can't deploy contract: "
      (loader.executeTransactionStepsFromAccountNoChainId operator treasury storageAccount
        additionalAccounts signer) := by
  have hnone : PriceFits none := fun p hp => by cases hp
  obtain ⟨trx, htrx⟩ := transactionWithComputeBudget_returns operator hnone
  have htag : 0x36 < 256 := by omega
  exact followsProtocol_of_poll
    (fun fuel => exec_eq_poll (fun _ => rfl) (fun _ _ => rfl) fuel 0 [])
    (fun i hi => exec_sendFromAccount htrx htag hi)
    (exec_sendFromAccount_overflow htrx htag)
    (fun i hi => stepIndex_add trx _ [] hi)

end

/-- **The step protocol.** Each driver follows it, for every stream of receipts; so on one stream
the three send the same indices and end alike. -/
theorem drivers_follow_protocol (loader : Loader) (operator : Keypair) (treasury : TreasuryPool)
    (storageAccount : Pubkey) (instruction : Bytes) (additionalAccounts : List Pubkey)
    (signer : Option Keypair) {price : Option Int} (hprice : PriceFits price) :
    FollowsProtocol loader treasury "Transaction failed with error: "
      (loader.executeTransactionStepsFromInstruction operator treasury storageAccount instruction
        additionalAccounts signer) ∧
    FollowsProtocol loader treasury "Can't deploy contract: "
      (loader.executeTransactionStepsFromAccount operator treasury storageAccount
        additionalAccounts signer price) ∧
    FollowsProtocol loader treasury "Can't deploy contract: "
      (loader.executeTransactionStepsFromAccountNoChainId operator treasury storageAccount
        additionalAccounts signer) ∧
    ∀ fuel,
      SameCourse treasury
        (exec (loader.executeTransactionStepsFromInstruction operator treasury storageAccount
          instruction additionalAccounts signer fuel) [])
        (exec (loader.executeTransactionStepsFromAccount operator treasury storageAccount
          additionalAccounts signer price fuel) []) ∧
      SameCourse treasury
        (exec (loader.executeTransactionStepsFromAccount operator treasury storageAccount
          additionalAccounts signer price fuel) [])
        (exec (loader.executeTransactionStepsFromAccountNoChainId operator treasury storageAccount
          additionalAccounts signer fuel) []) := by
  have hinstruction := followsProtocol_fromInstruction loader operator treasury storageAccount
    additionalAccounts signer instruction
  have haccount := followsProtocol_fromAccount loader operator treasury storageAccount
    additionalAccounts signer hprice
  have hnochain := followsProtocol_fromAccountNoChainId loader operator treasury storageAccount
    additionalAccounts signer
  exact ⟨hinstruction, haccount, hnochain, fun fuel =>
    ⟨sameCourse_of_followsProtocol hinstruction haccount fuel,
      sameCourse_of_followsProtocol haccount hnochain fuel⟩⟩

-- ---------------------------------------------------------------------------
-- Streams
-- ---------------------------------------------------------------------------

/-- A node that lets a transaction end with its `n`-th step. -/
def endsAfter (n : Nat) : Loader where
  loaderId := systemProgram
  getOperatorBalancePubkey operator := operator.pubkey
  receipts k := ⟨none, if k < n then ["Program log: step"] else ["Program data: exit_status=0x11"]⟩
  receiptText _ := "receipt"

def sampleTreasury : TreasuryPool := ⟨systemProgram, [7, 0, 0, 0]⟩

theorem endsAfter_stops (n : Nat) : ((endsAfter n).receipts n).Stops := by
  refine .inr ⟨"Program data: exit_status=0x11", ?_, .inl (by decide)⟩
  simp [endsAfter]

theorem endsAfter_open {n i : Nat} (h : i < n) : ¬ ((endsAfter n).receipts i).Stops := by
  have hline : ¬ Decides "Program log: step" := by decide
  rintro (herr | ⟨log, hlog, hdecides⟩)
  · exact herr rfl
  · simp only [endsAfter, if_pos h, List.mem_singleton] at hlog
    exact hline (hlog ▸ hdecides)

theorem drivers_follow_protocol_three :
    PriceFits (some 5000) ∧ ∀ fuel,
      SameCourse sampleTreasury
        (exec ((endsAfter 3).executeTransactionStepsFromAccount ⟨systemProgram⟩ sampleTreasury
          systemProgram [] none (some 5000) fuel) [])
        (exec ((endsAfter 3).executeTransactionStepsFromAccountNoChainId ⟨systemProgram⟩
          sampleTreasury systemProgram [] none fuel) []) := by
  have hprice : PriceFits (some 5000) := by
    rintro p ⟨⟩
    decide
  exact ⟨hprice, fun fuel => ((drivers_follow_protocol (endsAfter 3) ⟨systemProgram⟩ sampleTreasury
    systemProgram [] [] none hprice).2.2.2 fuel).2⟩

/-- The receipt that ends the execution is the one with index 2^32: the driver does not get to
it. -/
theorem executeTransactionSteps_too_late :
    ((endsAfter (2 ^ 32)).receipts (2 ^ 32)).Stops ∧
    (∀ i < 2 ^ 32, ¬ ((endsAfter (2 ^ 32)).receipts i).Stops) ∧
    ∀ fuel > 2 ^ 32, (exec ((endsAfter (2 ^ 32)).executeTransactionStepsFromAccount ⟨systemProgram⟩
      sampleTreasury systemProgram [] none none fuel) []).1 = .error .overflowError := by
  have hnone : PriceFits none := fun p hp => by cases hp
  obtain ⟨sent, _, _, hrun⟩ := (followsProtocol_fromAccount (endsAfter (2 ^ 32)) ⟨systemProgram⟩
    sampleTreasury systemProgram [] none hnone).goesOn (2 ^ 32) le_rfl fun i => endsAfter_open
  refine ⟨endsAfter_stops _, fun i => endsAfter_open, fun fuel hfuel => ?_⟩
  rw [hrun rfl fuel hfuel]

end NeonTests.EvmLoader
