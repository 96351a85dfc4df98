import Mathlib.Data.Finset.Card
import NeonTests.CostReport.Prepare
import NeonTests.Lib.Decimal

/-!
# Infrastructure — accounts, transactions and compute units

`get_solana_accounts_transactions_compute_units` of `deploy/cli/infrastructure.py`, which gives
the cost reports three of their columns.

* `accountCount_reported_iff` — the number of accounts is that of the accounts the transaction
  loads, if and only if it uses no lookup tables, or nothing but the first of them.
-/

namespace NeonTests.Infrastructure

open Fallible Python

/-! ## The transactions -/

/-- Indexes into the table of accounts at an address. -/
structure AddressTableLookup (κ : Type) where
  accountKey : κ
  writableIndexes : List Nat
  readonlyIndexes : List Nat

/-- A message of the legacy format has no lookups. -/
structure Message (κ : Type) where
  accountKeys : List κ
  addressTableLookups : Option (List (AddressTableLookup κ))

structure TransactionMeta where
  logMessages : Option (List String)

structure Transaction (κ : Type) where
  message : Message κ
  transactionMeta : Option TransactionMeta

/-- The answers of the proxy, `trx["result"]`, and of the Solana node. -/
structure Clients (κ : Type) where
  getSolanaTrxByNeon : String → Except PyError (List String)
  getTransaction : String → Except PyError (Option (Transaction κ))

variable {κ : Type}

/-! ## Compute units -/

def literal (text s : List Char) : Option (List Char) :=
  if text.isPrefixOf s then some (s.drop text.length) else none

/-- `\d+` -/
def digits (s : List Char) : Option (List Char × List Char) :=
  if s.takeWhile isDecimal = [] then none
  else some (s.takeWhile isDecimal, s.dropWhile isDecimal)

/-- A match of `consumed (\d+) of \d+ compute units$` at the start of the text. -/
def consumedHere (s : List Char) : Option Nat := do
  let s ← literal "consumed ".toList s
  let (units, s) ← digits s
  let s ← literal " of ".toList s
  let (_, s) ← digits s
  let s ← literal " compute units".toList s
  if s = [] ∨ s = ['\n'] then some (int units) else none

/-- The match the furthest behind, since `.+` is greedy; it ends with the line. -/
def consumedBehind : List Char → Option Nat
  | [] => none
  | c :: s => (if c = '\n' then none else consumedBehind s).or (consumedHere (c :: s))

/-- `re.match(r'^.+consumed (\d+) of \d+ compute units$', message)`, its group. -/
def consumed (message : String) : Option Nat :=
  match message.toList with
  | [] => none
  | c :: s => if c = '\n' then none else consumedBehind s

/-- The last line that matches. -/
def lastConsumed (logMessages : List String) : Nat :=
  (logMessages.reverse.findSome? consumed).getD 0

/-- The compute units of a transaction; it has none if an attribute is missing. -/
def computeUnits : Option (Transaction κ) → Except PyError Nat
  | none => .ok 0
  | some tx =>
    match tx.transactionMeta with
    | none => .ok 0
    | some transactionMeta =>
      match transactionMeta.logMessages with
      | none => .error .typeError
      | some logMessages => .ok (lastConsumed logMessages)

/-! ## The count -/

def accountCount (message : Message κ) : Nat :=
  match message.addressTableLookups with
  | some (first :: _) => first.writableIndexes.length + first.readonlyIndexes.length
  | some [] | none => message.accountKeys.length

/-- `result[0]` -/
def firstHash : List String → Except PyError String
  | [] => .error .indexError
  | hash :: _ => .ok hash

def transactionUnits (clients : Clients κ) (hash : String) : Except PyError Nat := do
  let tx ← clients.getTransaction hash
  computeUnits tx

def getSolanaAccountsTransactionsComputeUnits (clients : Clients κ) (ethTransaction : String) :
    Except PyError (Nat × Nat × Nat) := do
  let result ← clients.getSolanaTrxByNeon ethTransaction
  let hash ← firstHash result
  let tr ← clients.getTransaction hash
  let units ← result.mapM (transactionUnits clients)
  match tr with
  | none => .error .attributeError
  | some tr => .ok (accountCount tr.message, result.length, units.sum)

/-! ## The accounts of a transaction -/

def Message.lookups (message : Message κ) : List (AddressTableLookup κ) :=
  message.addressTableLookups.getD []

def AddressTableLookup.indexes (lookup : AddressTableLookup κ) : List Nat :=
  lookup.writableIndexes ++ lookup.readonlyIndexes

/-- The accounts the message stands for, where `table key i` is the `i`-th account of the table at
`key`. -/
def Message.loaded (table : κ → Nat → κ) (message : Message κ) : List κ :=
  message.accountKeys ++
    message.lookups.flatMap fun lookup => lookup.indexes.map (table lookup.accountKey)

/-- The message divides the set of accounts between its keys and the indexes of its tables. -/
def Loads (table : κ → Nat → κ) (message : Message κ) (accounts : Finset κ) : Prop :=
  accounts.val = (message.loaded table : Multiset κ)

/-- The transaction has its log, or no meta data at all. -/
def Transaction.Logged (tx : Transaction κ) : Prop :=
  ∀ transactionMeta ∈ tx.transactionMeta, transactionMeta.logMessages ≠ none

/-- All accounts are counted: there are no lookups, or the first of them is all there is. -/
def CountsAll (message : Message κ) : Prop :=
  message.lookups = [] ∨
    message.accountKeys = [] ∧ ∀ lookup ∈ message.lookups.tail, lookup.indexes = []

variable {table : κ → Nat → κ} {message : Message κ} {accounts : Finset κ} {tx : Transaction κ}
  {clients : Clients κ} {ethTransaction hash : String}

theorem length_loaded :
    (message.loaded table).length = message.accountKeys.length +
      (message.lookups.map fun lookup => lookup.indexes.length).sum := by
  rw [Message.loaded, List.length_append, List.length_flatMap]
  simp only [List.length_map]

theorem card_of_loads (h : Loads table message accounts) :
    accounts.card = message.accountKeys.length +
      (message.lookups.map fun lookup => lookup.indexes.length).sum := by
  rw [← length_loaded, Finset.card_def, h, Multiset.coe_card]

theorem accountCount_of_lookups {first : AddressTableLookup κ}
    {rest : List (AddressTableLookup κ)} (h : message.lookups = first :: rest) :
    accountCount message = first.indexes.length := by
  obtain ⟨keys, _ | lookups⟩ := message
  · cases h
  · obtain rfl : lookups = first :: rest := h
    exact List.length_append.symm

theorem accountCount_of_no_lookups (h : message.lookups = []) :
    accountCount message = message.accountKeys.length := by
  obtain ⟨keys, _ | lookups⟩ := message
  · rfl
  · obtain rfl : lookups = [] := h
    rfl

/-- The count is the size of the set that is loaded, if and only if it counts all there is. -/
theorem accountCount_eq_card_iff (h : Loads table message accounts) :
    accountCount message = accounts.card ↔ CountsAll message := by
  rw [card_of_loads h, CountsAll]
  rcases hlookups : message.lookups with _ | ⟨first, rest⟩
  · simp [accountCount_of_no_lookups hlookups]
  · rw [accountCount_of_lookups hlookups, List.map_cons, List.sum_cons, List.tail_cons]
    have hrest : (rest.map fun lookup => lookup.indexes.length).sum = 0 ↔
        ∀ lookup ∈ rest, lookup.indexes = [] := by
      rw [List.sum_eq_zero_iff_forall_eq_nat]
      simp
    simp only [reduceCtorEq, false_or]
    rw [← hrest, ← List.length_eq_zero_iff]
    omega

/-! ## The report -/

theorem computeUnits_returns_iff :
    (∃ units, computeUnits (some tx) = .ok units) ↔ tx.Logged := by
  obtain ⟨message, _ | ⟨_ | logMessages⟩⟩ := tx
  · simp [computeUnits, Transaction.Logged]
  · simp [computeUnits, Transaction.Logged]
  · simp [computeUnits, Transaction.Logged]

/-- The report on a Neon transaction that is one Solana transaction. -/
theorem getSolanaAccounts_eq_ok_iff
    (hresult : clients.getSolanaTrxByNeon ethTransaction = .ok [hash])
    (htx : clients.getTransaction hash = .ok (some tx)) {count trxs units : Nat} :
    getSolanaAccountsTransactionsComputeUnits clients ethTransaction = .ok (count, trxs, units) ↔
      computeUnits (some tx) = .ok units ∧ count = accountCount tx.message ∧ trxs = 1 := by
  have hunits : transactionUnits clients hash = computeUnits (some tx) := by
    rw [transactionUnits, htx, ok_bind]
  rw [getSolanaAccountsTransactionsComputeUnits, hresult, ok_bind, firstHash, ok_bind, htx,
    ok_bind, List.mapM_cons, List.mapM_nil, hunits]
  rcases computeUnits (some tx) with e | own
  · constructor
    · intro h
      cases h
    · intro ⟨h, _⟩
      cases h
  · rw [ok_bind]
    show Except.ok (accountCount tx.message, 1, own + 0) = _ ↔ _
    rw [Except.ok.injEq, Except.ok.injEq, Prod.mk.injEq, Prod.mk.injEq, Nat.add_zero]
    constructor
    · intro ⟨hcount, htrxs, hunits⟩
      exact ⟨hunits, hcount.symm, htrxs.symm⟩
    · intro ⟨hunits, hcount, htrxs⟩
      exact ⟨hcount.symm, htrxs.symm, hunits⟩

/-- For a Neon transaction that is one Solana transaction, the reported number of accounts is that
of the accounts it loads, if and only if it has its log, and uses no lookup tables or nothing but
the first of them. -/
theorem accountCount_reported_iff
    (hresult : clients.getSolanaTrxByNeon ethTransaction = .ok [hash])
    (htx : clients.getTransaction hash = .ok (some tx)) (h : Loads table tx.message accounts) :
    (∃ trxs units, getSolanaAccountsTransactionsComputeUnits clients ethTransaction =
        .ok (accounts.card, trxs, units)) ↔
      tx.Logged ∧ CountsAll tx.message := by
  simp only [getSolanaAccounts_eq_ok_iff hresult htx]
  rw [← computeUnits_returns_iff, ← accountCount_eq_card_iff h]
  constructor
  · intro ⟨_, units, hunits, hcount, _⟩
    exact ⟨⟨units, hunits⟩, hcount.symm⟩
  · intro ⟨⟨units, hunits⟩, hcount⟩
    exact ⟨1, units, hunits, hcount.symm, rfl⟩

/-- The cost reports' requests, of these clients. -/
def chain (clients : Clients κ)
    (getTransactionByHash : String → Except PyError (Option CostReport.Tx)) : CostReport.Chain where
  getSolanaAccountsTransactionsComputeUnits := getSolanaAccountsTransactionsComputeUnits clients
  getTransactionByHash := getTransactionByHash

/-- The column of the cost reports. -/
theorem accCount_eq_card_iff {lower : String → String} {x : String × CostReport.Action}
    {row : CostReport.Row} {getTransactionByHash : String → Except PyError (Option CostReport.Tx)}
    (hrow : CostReport.RowFor (chain clients getTransactionByHash) lower x row)
    (hresult : clients.getSolanaTrxByNeon x.2.tx = .ok [hash])
    (htx : clients.getTransaction hash = .ok (some tx)) (h : Loads table tx.message accounts) :
    row.accCount = accounts.card ↔ CountsAll tx.message := by
  obtain ⟨-, hcount, -⟩ := (getSolanaAccounts_eq_ok_iff hresult htx).mp hrow.accounts
  rw [hcount, accountCount_eq_card_iff h]

/-! ## Messages of both formats -/

/-- Clients that know one transaction. -/
def clientsOf (tx : Transaction κ) : Clients κ where
  getSolanaTrxByNeon _ := .ok ["5sig"]
  getTransaction _ := .ok (some tx)

/-- A payer and a program, by number. -/
def legacyTx : Transaction Nat := ⟨⟨[1, 2], none⟩, some ⟨some []⟩⟩

def sampleTable (key i : Nat) : Nat := 100 * key + i

theorem getSolanaTrxByNeon_clientsOf (tx : Transaction κ) (ethTransaction : String) :
    (clientsOf tx).getSolanaTrxByNeon ethTransaction = .ok ["5sig"] := rfl

theorem accountCount_reported_iff_legacyTx :
    ∃ trxs units, getSolanaAccountsTransactionsComputeUnits (clientsOf legacyTx) "0x1" =
      .ok (2, trxs, units) := by
  have hloads : Loads sampleTable legacyTx.message {1, 2} := rfl
  have hlogged : legacyTx.Logged := by simp [Transaction.Logged, legacyTx]
  exact (accountCount_reported_iff (getSolanaTrxByNeon_clientsOf _ _) rfl hloads).mpr
    ⟨hlogged, .inl rfl⟩

/-- The same payer and program, and three accounts of two tables. -/
def versionedTx : Transaction Nat :=
  ⟨⟨[1, 2], some [⟨10, [0], [1]⟩, ⟨11, [3], []⟩]⟩, some ⟨some []⟩⟩

def versionedAccounts : Finset Nat := {1, 2, 1000, 1001, 1103}

/-- It loads five accounts, and two are reported. -/
theorem accountCount_versionedTx :
    Loads sampleTable versionedTx.message versionedAccounts ∧
    ¬∃ trxs units, getSolanaAccountsTransactionsComputeUnits (clientsOf versionedTx) "0x1" =
      .ok (versionedAccounts.card, trxs, units) := by
  refine ⟨rfl, fun ⟨trxs, units, h⟩ => ?_⟩
  have hcount :=
    ((getSolanaAccounts_eq_ok_iff (getSolanaTrxByNeon_clientsOf _ _) rfl).mp h).2.1
  cases hcount

end NeonTests.Infrastructure
