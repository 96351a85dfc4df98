import NeonTests.Lib.Fallible
import NeonTests.Lib.Json
import NeonTests.Lib.StableSort

/-!
# RPC checks — the events of a Neon transaction

`assert_log_field_in_neon_trx_receipt` of the basic tests' `rpc_checks.py` goes through the Solana
transactions of a receipt and their instructions, and compares the events it has collected, in
their order, with those of a call that succeeds.

* `assertLogField_eq_ok_iff` — which receipts pass;
* `assertLogField_insensitive_iff` — for which receipts the verdict is that on all their events:
  the comparison is made after each instruction, not after the last one.
-/

namespace NeonTests.RpcChecks

open Fallible

/-! ## The receipt -/

structure Log where
  neonEventType : String
  neonEventOrder : Int
  deriving DecidableEq, Repr

/-- `fields` are those with a number, for which only the presence is checked. -/
structure Instruction where
  fields : Dict String Json
  solanaProgram : String
  solanaInnerInstructionIndex : Option Int
  neonInstructionName : String
  neonLogs : List Log

structure SolanaTransaction where
  fields : Dict String Json
  solanaTransactionIsSuccess : Bool
  solanaInstructions : List Instruction

/-! ## The check -/

inductive CheckError
  | noExpectedField (field : String)
  | isNot (field : String)
  /-- An `assert` without a message. -/
  | assertion
  | emptyLogs
  | eventTypes (actual expected : List String)
  deriving DecidableEq, Repr

/-- `type(value) is int` -/
def isInt : Json → Bool
  | .number literal => literal.toList.all fun c => c = '-' || c.isDigit
  | _ => false

/-- `assert_fields_are_specified_type`; the condition is `t is _type or NoneType`, and a class
counts as true. -/
def assertFieldsAreSpecifiedType (type : Json → Bool) (obj : Dict String Json)
    (expectedTypeFields : List String) : Except CheckError Unit :=
  forM expectedTypeFields fun field =>
    match obj.get? field with
    | none => .error (.noExpectedField field)
    | some t => guard (type t ∨ True) (.isNot field)

def transactionFields : List String := ["solanaBlockSlot", "solanaLamportExpense"]

def instructionFields : List String :=
  ["solanaInstructionIndex", "svmHeapSizeLimit", "svmCyclesLimit", "svmCyclesUsed",
    "neonInstructionCode", "neonEvmSteps", "neonTotalEvmSteps", "neonTransactionFee",
    "neonGasUsed", "neonTotalGasUsed"]

/-- `range` of a negative number is empty. -/
def expectedEventTypes (eventsCount : Int) : List String :=
  ["EnterCall"] ++ List.replicate eventsCount.toNat "Log" ++ ["ExitStop", "Return"]

def eventTypes (logs : List Log) : List String :=
  (StableSort.sorted Log.neonEventOrder logs).map Log.neonEventType

def compareEvents (expected : List String) (allLogs : List Log) :
    Except CheckError (List Log) := do
  guard (eventTypes allLogs = expected) (.eventTypes (eventTypes allLogs) expected)
  pure allLogs

/-- The end of the inner loop's body: the events are added to `all_logs`, and compared. -/
def checkEvents (expected : List String) (allLogs : List Log) (instruction : Instruction) :
    Except CheckError (List Log) :=
  if instruction.neonInstructionName ≠ "HolderWrite" then do
    guard (instruction.neonLogs ≠ []) .emptyLogs
    compareEvents expected (allLogs ++ instruction.neonLogs)
  else pure allLogs

/-- The body of the inner loop. -/
def checkInstruction (expected : List String) (allLogs : List Log) (instruction : Instruction) :
    Except CheckError (List Log) := do
  assertFieldsAreSpecifiedType isInt instruction.fields instructionFields
  guard (instruction.solanaProgram = "NeonEVM") .assertion
  guard (instruction.solanaInnerInstructionIndex = none) .assertion
  checkEvents expected allLogs instruction

/-- The body of the outer loop. -/
def checkTransaction (expected : List String) (allLogs : List Log) (trx : SolanaTransaction) :
    Except CheckError (List Log) := do
  assertFieldsAreSpecifiedType isInt trx.fields transactionFields
  guard (trx.solanaTransactionIsSuccess = true) .assertion
  guard (trx.solanaInstructions.isEmpty = false) .assertion
  trx.solanaInstructions.foldlM (checkInstruction expected) allLogs

/-- `assert_log_field_in_neon_trx_receipt`, of the receipt's Solana transactions. -/
def assertLogField (solanaTransactions : List SolanaTransaction) (eventsCount : Int) :
    Except CheckError Unit := do
  let _allLogs ← solanaTransactions.foldlM (checkTransaction (expectedEventTypes eventsCount)) []
  pure ()

/-! ## What the events are compared with -/

/-- The events of one instruction, except for `HolderWrite`. -/
def Instruction.events (instruction : Instruction) : List (List Log) :=
  if instruction.neonInstructionName ≠ "HolderWrite" then [instruction.neonLogs] else []

/-- What is checked besides the event types. -/
structure Instruction.WellFormed (instruction : Instruction) : Prop where
  fields : ∀ field ∈ instructionFields, instruction.fields.get? field ≠ none
  program : instruction.solanaProgram = "NeonEVM"
  inner : instruction.solanaInnerInstructionIndex = none
  logs : ∀ logs ∈ instruction.events, logs ≠ []

structure SolanaTransaction.WellFormed (trx : SolanaTransaction) : Prop where
  fields : ∀ field ∈ transactionFields, trx.fields.get? field ≠ none
  success : trx.solanaTransactionIsSuccess = true
  nonempty : trx.solanaInstructions.isEmpty = false
  instructions : ∀ instruction ∈ trx.solanaInstructions, instruction.WellFormed

def SolanaTransaction.events (trx : SolanaTransaction) : List (List Log) :=
  trx.solanaInstructions.flatMap Instruction.events

/-- The events of each instruction that is not `HolderWrite`. -/
def eventLists (trxs : List SolanaTransaction) : List (List Log) :=
  trxs.flatMap SolanaTransaction.events

/-- The comparisons, one after each list of events. -/
def Compared (expected : List String) : List Log → List (List Log) → Prop
  | _, [] => True
  | allLogs, logs :: rest =>
    eventTypes (allLogs ++ logs) = expected ∧ Compared expected (allLogs ++ logs) rest

variable {expected : List String} {allLogs allLogs' : List Log} {instruction : Instruction}
  {trx : SolanaTransaction} {trxs : List SolanaTransaction} {eventsCount : Int}

theorem compared_append {xs ys : List (List Log)} :
    Compared expected allLogs (xs ++ ys) ↔
      Compared expected allLogs xs ∧ Compared expected (allLogs ++ xs.flatten) ys := by
  induction xs generalizing allLogs with
  | nil => simp [Compared]
  | cons logs xs ih =>
    rw [List.cons_append, Compared, Compared, ih, and_assoc, List.flatten_cons,
      List.append_assoc]

theorem length_eventTypes (logs : List Log) : (eventTypes logs).length = logs.length := by
  rw [eventTypes, List.length_map]
  exact (StableSort.sorted_perm _ logs).length_eq

/-- No two comparisons can both succeed: the second is of more events. -/
theorem compared_iff {lists : List (List Log)} (h : ∀ logs ∈ lists, logs ≠ []) :
    Compared expected allLogs lists ↔
      lists = [] ∨ ∃ logs, lists = [logs] ∧ eventTypes (allLogs ++ logs) = expected := by
  rcases lists with _ | ⟨logs, _ | ⟨next, rest⟩⟩
  · simp [Compared]
  · simp [Compared]
  · simp only [Compared, reduceCtorEq, List.cons.injEq, and_false, false_and, exists_false,
      or_false, iff_false, not_and]
    intro hfirst hsecond
    have hlength := congrArg List.length (hfirst.trans hsecond.symm)
    have hnext : 0 < next.length := List.length_pos_of_ne_nil (h next (by simp))
    simp only [length_eventTypes, List.length_append] at hlength
    omega

/-! ## The loops -/

theorem assertFieldsAreSpecifiedType_eq_ok {type : Json → Bool} {obj : Dict String Json}
    {fields : List String} {u : Unit} :
    assertFieldsAreSpecifiedType type obj fields = .ok u ↔
      ∀ field ∈ fields, obj.get? field ≠ none := by
  rw [assertFieldsAreSpecifiedType, forM_eq_ok]
  refine forall₂_congr fun field _ => ?_
  rcases obj.get? field with _ | t
  · simp
  · simp [guard_of]

theorem compareEvents_eq_ok :
    compareEvents expected allLogs = .ok allLogs' ↔
      eventTypes allLogs = expected ∧ allLogs' = allLogs := by
  rw [compareEvents, guard_bind_eq_ok, pure_eq_ok, eq_comm (a := allLogs)]

theorem checkEvents_eq_ok :
    checkEvents expected allLogs instruction = .ok allLogs' ↔
      (∀ logs ∈ instruction.events, logs ≠ []) ∧
      Compared expected allLogs instruction.events ∧
      allLogs' = allLogs ++ instruction.events.flatten := by
  unfold checkEvents Instruction.events
  split
  · rw [guard_bind_eq_ok, compareEvents_eq_ok, List.forall_mem_singleton,
      List.flatten_singleton, Compared, Compared, and_true]
  · rw [pure_eq_ok]
    simp [Compared, eq_comm]

theorem checkInstruction_eq_ok :
    checkInstruction expected allLogs instruction = .ok allLogs' ↔
      instruction.WellFormed ∧ Compared expected allLogs instruction.events ∧
      allLogs' = allLogs ++ instruction.events.flatten := by
  unfold checkInstruction
  rw [check_bind_eq_ok, assertFieldsAreSpecifiedType_eq_ok, guard_bind_eq_ok, guard_bind_eq_ok,
    checkEvents_eq_ok]
  constructor
  · intro ⟨hfields, hprogram, hinner, hlogs, hcompared⟩
    exact ⟨⟨hfields, hprogram, hinner, hlogs⟩, hcompared⟩
  · intro ⟨hwell, hcompared⟩
    exact ⟨hwell.fields, hwell.program, hwell.inner, hwell.logs, hcompared⟩

/-- A loop whose body compares the events of its item, and adds them to the others. -/
theorem foldlM_eq_ok {α : Type} {body : List Log → α → Except CheckError (List Log)}
    {good : α → Prop} {events : α → List (List Log)}
    (hbody : ∀ allLogs x allLogs', body allLogs x = .ok allLogs' ↔
      good x ∧ Compared expected allLogs (events x) ∧ allLogs' = allLogs ++ (events x).flatten)
    {xs : List α} :
    xs.foldlM body allLogs = .ok allLogs' ↔
      (∀ x ∈ xs, good x) ∧ Compared expected allLogs (xs.flatMap events) ∧
      allLogs' = allLogs ++ (xs.flatMap events).flatten := by
  induction xs generalizing allLogs with
  | nil =>
    rw [List.foldlM_nil, pure_eq_ok]
    simp [Compared, eq_comm]
  | cons x xs ih =>
    rw [List.foldlM_cons, bind_eq_ok, List.forall_mem_cons, List.flatMap_cons, compared_append,
      List.flatten_append, ← List.append_assoc]
    constructor
    · intro ⟨logs, hfirst, hrest⟩
      obtain ⟨hgood, hcompared, rfl⟩ := (hbody _ _ _).mp hfirst
      obtain ⟨hgoods, hcompareds, hall⟩ := ih.mp hrest
      exact ⟨⟨hgood, hgoods⟩, ⟨hcompared, hcompareds⟩, hall⟩
    · intro ⟨⟨hgood, hgoods⟩, ⟨hcompared, hcompareds⟩, hall⟩
      exact ⟨_, (hbody _ _ _).mpr ⟨hgood, hcompared, rfl⟩, ih.mpr ⟨hgoods, hcompareds, hall⟩⟩

theorem checkInstructions_eq_ok {instructions : List Instruction} :
    instructions.foldlM (checkInstruction expected) allLogs = .ok allLogs' ↔
      (∀ instruction ∈ instructions, instruction.WellFormed) ∧
      Compared expected allLogs (instructions.flatMap Instruction.events) ∧
      allLogs' = allLogs ++ (instructions.flatMap Instruction.events).flatten := by
  apply foldlM_eq_ok
  intro allLogs instruction allLogs'
  exact checkInstruction_eq_ok

theorem checkTransaction_eq_ok :
    checkTransaction expected allLogs trx = .ok allLogs' ↔
      trx.WellFormed ∧ Compared expected allLogs trx.events ∧
      allLogs' = allLogs ++ trx.events.flatten := by
  unfold checkTransaction
  rw [check_bind_eq_ok, assertFieldsAreSpecifiedType_eq_ok, guard_bind_eq_ok, guard_bind_eq_ok,
    checkInstructions_eq_ok]
  constructor
  · intro ⟨hfields, hsuccess, hnonempty, hinstructions, hcompared⟩
    exact ⟨⟨hfields, hsuccess, hnonempty, hinstructions⟩, hcompared⟩
  · intro ⟨hwell, hcompared⟩
    exact ⟨hwell.fields, hwell.success, hwell.nonempty, hwell.instructions, hcompared⟩

theorem checkTransactions_eq_ok :
    trxs.foldlM (checkTransaction expected) allLogs = .ok allLogs' ↔
      (∀ trx ∈ trxs, trx.WellFormed) ∧ Compared expected allLogs (eventLists trxs) ∧
      allLogs' = allLogs ++ (eventLists trxs).flatten := by
  apply foldlM_eq_ok
  intro allLogs trx allLogs'
  exact checkTransaction_eq_ok

theorem ne_nil_of_mem_eventLists (h : ∀ trx ∈ trxs, trx.WellFormed) :
    ∀ logs ∈ eventLists trxs, logs ≠ [] := by
  intro logs hlogs
  obtain ⟨trx, htrx, hlogs⟩ := List.mem_flatMap.mp hlogs
  obtain ⟨instruction, hinstruction, hlogs⟩ := List.mem_flatMap.mp hlogs
  exact ((h trx htrx).instructions instruction hinstruction).logs logs hlogs

/-- The receipts that pass: those with one list of events, the expected ones, or none. -/
theorem assertLogField_eq_ok_iff :
    assertLogField trxs eventsCount = .ok () ↔
      (∀ trx ∈ trxs, trx.WellFormed) ∧
      (eventLists trxs = [] ∨
        ∃ logs, eventLists trxs = [logs] ∧ eventTypes logs = expectedEventTypes eventsCount) := by
  unfold assertLogField
  constructor
  · intro h
    obtain ⟨allLogs, hloop, -⟩ := bind_eq_ok.mp h
    obtain ⟨hwell, hcompared, -⟩ := checkTransactions_eq_ok.mp hloop
    exact ⟨hwell, (compared_iff (ne_nil_of_mem_eventLists hwell)).mp hcompared⟩
  · intro ⟨hwell, hlists⟩
    have hcompared : Compared (expectedEventTypes eventsCount) [] (eventLists trxs) :=
      (compared_iff (ne_nil_of_mem_eventLists hwell)).mpr hlists
    rw [checkTransactions_eq_ok.mpr ⟨hwell, hcompared, rfl⟩, ok_bind]
    rfl

/-! ## All the events -/

/-- The events of the receipt, however they are split, decide: a well-formed receipt passes if
they are the expected ones, and none passes if they are not. -/
structure Insensitive (trxs : List SolanaTransaction) (eventsCount : Int)
    (verdict : Except CheckError Unit) : Prop where
  passes : (∀ trx ∈ trxs, trx.WellFormed) →
    eventTypes (eventLists trxs).flatten = expectedEventTypes eventsCount → verdict = .ok ()
  fails : eventTypes (eventLists trxs).flatten ≠ expectedEventTypes eventsCount → verdict ≠ .ok ()

/-- Events are missing, or are split among several instructions. -/
def Misjudged (trxs : List SolanaTransaction) (eventsCount : Int) : Prop :=
  eventLists trxs = [] ∨
    2 ≤ (eventLists trxs).length ∧
    eventTypes (eventLists trxs).flatten = expectedEventTypes eventsCount

theorem expectedEventTypes_ne_nil : expectedEventTypes eventsCount ≠ [] := by
  simp [expectedEventTypes]

theorem not_misjudged_of_insensitive
    (h : Insensitive trxs eventsCount (assertLogField trxs eventsCount))
    (hwell : ∀ trx ∈ trxs, trx.WellFormed) : ¬Misjudged trxs eventsCount := by
  rintro (hnone | ⟨htwo, htypes⟩)
  · refine h.fails ?_ (assertLogField_eq_ok_iff.mpr ⟨hwell, .inl hnone⟩)
    rw [hnone]
    exact expectedEventTypes_ne_nil.symm
  · obtain ⟨-, hnone | ⟨logs, hone, -⟩⟩ := assertLogField_eq_ok_iff.mp (h.passes hwell htypes)
    · rw [hnone] at htwo
      cases htwo
    · rw [hone] at htwo
      exact absurd htwo (by simp)

theorem insensitive_of_not_misjudged
    (h : (∀ trx ∈ trxs, trx.WellFormed) → ¬Misjudged trxs eventsCount) :
    Insensitive trxs eventsCount (assertLogField trxs eventsCount) where
  passes hwell htypes := by
    have hjudged := h hwell
    rcases hlists : eventLists trxs with _ | ⟨logs, _ | ⟨next, rest⟩⟩
    · exact (hjudged (.inl hlists)).elim
    · rw [hlists, List.flatten_singleton] at htypes
      exact assertLogField_eq_ok_iff.mpr ⟨hwell, .inr ⟨logs, hlists, htypes⟩⟩
    · exact (hjudged (.inr ⟨by simp [hlists], htypes⟩)).elim
  fails htypes hpasses := by
    obtain ⟨hwell, hnone | ⟨logs, hone, hlogs⟩⟩ := assertLogField_eq_ok_iff.mp hpasses
    · exact h hwell (.inl hnone)
    · rw [hone, List.flatten_singleton] at htypes
      exact htypes hlogs

/-- The verdict is that on all the events, if and only if the receipt is not well formed, has its
events in one instruction, or wrong ones in several. -/
theorem assertLogField_insensitive_iff :
    Insensitive trxs eventsCount (assertLogField trxs eventsCount) ↔
      ((∀ trx ∈ trxs, trx.WellFormed) → ¬Misjudged trxs eventsCount) :=
  ⟨not_misjudged_of_insensitive, insensitive_of_not_misjudged⟩

/-! ## Two instructions -/

/-- The fields with a number. -/
def zeros (fields : List String) (h : fields.Nodup) : Dict String Json where
  items := fields.map fun field => (field, .number "0")
  nodup := by
    rw [List.map_map]
    exact (List.map_id fields).symm ▸ h

theorem get?_zeros {fields : List String} (h : fields.Nodup) :
    ∀ field ∈ fields, (zeros fields h).get? field ≠ none := by
  intro field hfield hnone
  rw [Dict.get?, Dict.lookup_eq_none] at hnone
  exact hnone (List.mem_map.mpr ⟨(field, .number "0"), List.mem_map_of_mem hfield, rfl⟩)

/-- An instruction as the proxy reports it. -/
def sampleInstruction (name : String) (logs : List Log) : Instruction where
  fields := zeros instructionFields (by decide)
  solanaProgram := "NeonEVM"
  solanaInnerInstructionIndex := none
  neonInstructionName := name
  neonLogs := logs

def sampleTransaction (instructions : List Instruction) : SolanaTransaction where
  fields := zeros transactionFields (by decide)
  solanaTransactionIsSuccess := true
  solanaInstructions := instructions

theorem wellFormed_sampleInstruction {name : String} {logs : List Log} (h : logs ≠ []) :
    (sampleInstruction name logs).WellFormed where
  fields := get?_zeros (by decide)
  program := rfl
  inner := rfl
  logs := by
    intro logs' hlogs'
    unfold Instruction.events at hlogs'
    split at hlogs'
    · rwa [List.mem_singleton.mp hlogs']
    · cases hlogs'

theorem wellFormed_sampleTransaction {name : String} {logs : List Log} (h : logs ≠ []) :
    (sampleTransaction [sampleInstruction name logs]).WellFormed where
  fields := get?_zeros (by decide)
  success := rfl
  nonempty := rfl
  instructions := List.forall_mem_singleton.mpr (wellFormed_sampleInstruction h)

/-- A call with one event, which took two transactions. -/
def splitTrxs : List SolanaTransaction :=
  [sampleTransaction [sampleInstruction "TxStepFromData" [⟨"EnterCall", 1⟩, ⟨"Log", 2⟩]],
    sampleTransaction [sampleInstruction "TxStepFromData" [⟨"ExitStop", 3⟩, ⟨"Return", 4⟩]]]

/-- The right events fail in two instructions, and a receipt without any passes. -/
theorem assertLogField_splitTrxs :
    ¬Insensitive splitTrxs 1 (assertLogField splitTrxs 1) ∧
    ¬Insensitive [sampleTransaction [sampleInstruction "HolderWrite" []]] 1
      (assertLogField [sampleTransaction [sampleInstruction "HolderWrite" []]] 1) := by
  constructor
  · intro h
    have hwell : ∀ trx ∈ splitTrxs, trx.WellFormed :=
      List.forall_mem_cons.mpr ⟨wellFormed_sampleTransaction (by decide),
        List.forall_mem_singleton.mpr (wellFormed_sampleTransaction (by decide))⟩
    have hpasses := h.passes hwell (by decide)
    revert hpasses
    decide
  · intro h
    exact h.fails (by decide) (by decide)

end NeonTests.RpcChecks
