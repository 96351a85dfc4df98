import NeonTests.Lib.Dict
import NeonTests.Lib.Fallible

/-!
# Lost transactions — the check of check_lost_trx.py

`scripts/check_lost_trx.py` loads the files that a load test has left, maps from a Neon transaction
to its Solana transactions, and looks all of them up in a pool. Nothing catches what the lookup of
a Solana transaction raises: it ends the script, and what the pool has not started is cancelled.

* `run_covers_iff` — every transaction of every file is looked up once and the counts are printed,
  if and only if all the files but the last are empty, it has no more Solana transactions than Neon
  transactions, and all of them are answered.
-/

namespace NeonTests.LostTransactions

open Fallible

/-! ## The script -/

/-- `{neon_tx: [sol_tx, ...]}` -/
abbrev TransactionsFile := Dict String (List String)

/-- The answers of the two clients; `ρ` are receipts and `σ` Solana transactions. -/
structure Clients (ε ρ σ : Type) where
  getTransactionReceipt : String → Except ε ρ
  getTransaction : String → Except ε (Option σ)

variable {ε ρ σ : Type}

/-- `load_transactions_list`, `files` being what the glob finds. -/
def loadTransactionsList (files : List TransactionsFile) : TransactionsFile :=
  files.foldl (fun _ file => file) .empty

def checkNeonTx (tx : String) (clients : Clients ε ρ σ) : Bool :=
  match clients.getTransactionReceipt tx with
  | .ok _ => true
  | .error _ => false

def checkSolTx (tx : String) (clients : Clients ε ρ σ) : Except ε Bool := do
  let res ← clients.getTransaction tx
  pure res.isSome

/-- `list(itertools.chain(*txs.values()))` -/
def solTxs (txs : TransactionsFile) : List String := txs.items.flatMap Prod.snd

/-- The calls of `executor.map(f, txs, clients)`: one for each pair. -/
def poolCalls (txs : List String) (clients : List (Clients ε ρ σ)) :
    List (String × Clients ε ρ σ) := txs.zip clients

/-- The calls that the pool makes, and what comes of consuming `executor.map`. The pool takes the
calls in their order; `started` is how many it has taken when the first exception comes out, which
are at least those up to this one. The others are cancelled. -/
def poolMap {α β : Type} (started : Nat) (f : α → Except ε β) (calls : List α) :
    List α × Except ε (List β) :=
  match calls.mapM f with
  | .ok results => (calls, .ok results)
  | .error e =>
    let failed := calls.findIdx fun call => !(f call).isOk
    (calls.take (max (failed + 1) started), .error e)

/-- What is printed at the end. -/
structure Report where
  neonCount : Nat
  successNeon : Nat
  solCount : Nat
  successSol : Nat
  deriving DecidableEq, Repr

/-- The transactions that are looked up, and the report. -/
structure Outcome (ε : Type) where
  neonLookups : List String
  solLookups : List String
  report : Except ε Report

def run (started : Nat) (clients : Clients ε ρ σ) (files : List TransactionsFile) : Outcome ε :=
  let txs := loadTransactionsList files
  let neonCalls := poolCalls txs.keys (List.replicate txs.items.length clients)
  let solCalls := poolCalls (solTxs txs) (List.replicate txs.items.length clients)
  let (made, results) := poolMap started (fun call => checkSolTx call.1 call.2) solCalls
  { neonLookups := neonCalls.map Prod.fst
    solLookups := made.map Prod.fst
    report := do
      -- `check_neon_tx` raises nothing
      let neonResults := neonCalls.map fun call => checkNeonTx call.1 call.2
      let solResults ← results
      pure ⟨txs.items.length, neonResults.count true, (solTxs txs).length,
        solResults.count true⟩ }

/-! ## What is covered -/

/-- The lookup of a Solana transaction succeeds. -/
def solFound (clients : Clients ε ρ σ) (tx : String) : Bool :=
  match checkSolTx tx clients with
  | .ok found => found
  | .error _ => false

/-- Every transaction of every file is looked up once, and the successful lookups are counted and
printed. -/
structure Covers (clients : Clients ε ρ σ) (files : List TransactionsFile)
    (outcome : Outcome ε) : Prop where
  neon : outcome.neonLookups.Perm (files.flatMap Dict.keys)
  sol : outcome.solLookups.Perm (files.flatMap solTxs)
  printed : ∃ report, outcome.report = .ok report ∧
    report.successNeon = outcome.neonLookups.countP (fun tx => checkNeonTx tx clients) ∧
    report.successSol = outcome.solLookups.countP (solFound clients)

variable {clients : Clients ε ρ σ} {files : List TransactionsFile} {started : Nat}

/-- The shorter of the two lists ends the calls. -/
theorem poolCalls_replicate (txs : List String) (n : Nat) :
    poolCalls txs (List.replicate n clients) = (txs.take n).map fun tx => (tx, clients) := by
  induction txs generalizing n with
  | nil => simp [poolCalls]
  | cons tx txs ih =>
    rcases n with _ | n
    · rfl
    · rw [poolCalls, List.replicate_succ, List.zip_cons_cons, List.take_succ_cons, List.map_cons,
        ← ih n]
      rfl

theorem neonLookups_run :
    (run started clients files).neonLookups = (loadTransactionsList files).keys := by
  show (poolCalls _ _).map Prod.fst = _
  rw [poolCalls_replicate, List.map_map, List.take_of_length_le]
  · exact List.map_id _
  · exact Nat.le_of_eq (List.length_map _)

/-- The client answers what it is asked for. -/
def Answers (clients : Clients ε ρ σ) (txs : List String) : Prop :=
  ∀ tx ∈ txs, ∃ res, clients.getTransaction tx = .ok res

theorem checkSolTx_returns_iff {tx : String} :
    (∃ found, checkSolTx tx clients = .ok found) ↔ ∃ res, clients.getTransaction tx = .ok res := by
  rw [checkSolTx]
  rcases clients.getTransaction tx with e | res
  · simp
  · exact ⟨fun _ => ⟨res, rfl⟩, fun _ => ⟨res.isSome, rfl⟩⟩

/-- The Solana transactions that there is a client for. -/
def solCalls (clients : Clients ε ρ σ) (files : List TransactionsFile) :
    List (String × Clients ε ρ σ) :=
  poolCalls (solTxs (loadTransactionsList files))
    (List.replicate (loadTransactionsList files).items.length clients)

theorem map_fst_solCalls : (solCalls clients files).map Prod.fst =
    (solTxs (loadTransactionsList files)).take (loadTransactionsList files).items.length := by
  rw [solCalls, poolCalls_replicate, List.map_map]
  exact List.map_id _

theorem answered_iff : (∃ results, ((solCalls clients files).mapM fun call =>
      checkSolTx call.1 call.2) = .ok results) ↔
    Answers clients ((solTxs (loadTransactionsList files)).take
      (loadTransactionsList files).items.length) := by
  rw [mapM_returns_iff, Answers, solCalls, poolCalls_replicate]
  simp only [List.forall_mem_map, checkSolTx_returns_iff]

/-- Where the results are there, all calls were made. -/
theorem run_of_answered {results : List Bool}
    (h : ((solCalls clients files).mapM fun call => checkSolTx call.1 call.2) = .ok results) :
    (run started clients files).solLookups = (solCalls clients files).map Prod.fst ∧
      ∃ report, (run started clients files).report = .ok report ∧
        report.successSol = results.count true := by
  have hpool : poolMap started (fun call => checkSolTx call.1 call.2) (solCalls clients files) =
      (solCalls clients files, .ok results) := by
    rw [poolMap, h]
  rw [solCalls] at hpool
  rw [run]
  simp only [hpool]
  exact ⟨rfl, _, rfl, rfl⟩

theorem answered_of_report {report : Report} (h : (run started clients files).report = .ok report) :
    ∃ results, ((solCalls clients files).mapM fun call => checkSolTx call.1 call.2) =
      .ok results := by
  rcases hresults : (solCalls clients files).mapM fun call => checkSolTx call.1 call.2
    with e | results
  · have hpool : (poolMap started (fun call => checkSolTx call.1 call.2)
        (solCalls clients files)).2 = .error e := by
      rw [poolMap, hresults]
    obtain ⟨results, hok, -⟩ := bind_eq_ok.mp h
    rw [solCalls] at hpool
    cases hpool.symm.trans hok
  · exact ⟨results, hresults⟩

theorem count_results {calls : List (String × Clients ε ρ σ)} {results : List Bool}
    (h : List.Forall₂ (fun call result => checkSolTx call.1 call.2 = .ok result) calls results) :
    results.count true = calls.countP fun call => solFound call.2 call.1 := by
  induction h with
  | nil => rfl
  | @cons call result calls results hcall _ ih =>
    have hfound : solFound call.2 call.1 = result := by rw [solFound, hcall]
    rw [List.count_cons, List.countP_cons, hfound, ih]
    rcases result <;> rfl

theorem countP_calls (txs : List String) (n : Nat) (p : Clients ε ρ σ → String → Bool) :
    (poolCalls txs (List.replicate n clients)).countP (fun call => p call.2 call.1) =
      ((poolCalls txs (List.replicate n clients)).map Prod.fst).countP (p clients) := by
  rw [poolCalls_replicate, List.countP_map, List.countP_map, List.countP_map]
  rfl

/-- The counts are those of the lookups. -/
theorem counts_run {report : Report} (h : (run started clients files).report = .ok report) :
    report.successNeon =
        (run started clients files).neonLookups.countP (fun tx => checkNeonTx tx clients) ∧
      report.successSol = (run started clients files).solLookups.countP (solFound clients) := by
  obtain ⟨results, hresults⟩ := answered_of_report h
  obtain ⟨hmade, report', hreport', hsol⟩ :
      (run started clients files).solLookups = _ ∧ _ := run_of_answered hresults
  obtain rfl := Except.ok.inj (h.symm.trans hreport')
  constructor
  · obtain ⟨_, -, hreport⟩ := bind_eq_ok.mp h
    obtain rfl := pure_eq_ok.mp hreport
    show List.count true (List.map _ _) = _
    rw [List.count_eq_countP, List.countP_map]
    simp only [Function.comp_def, beq_true]
    exact countP_calls _ _ fun clients tx => checkNeonTx tx clients
  · rw [hsol, count_results (forall₂_of_mapM hresults), hmade]
    exact countP_calls _ _ solFound

/-- Only the last file is kept. -/
theorem loadTransactionsList_concat (files : List TransactionsFile) (file : TransactionsFile) :
    loadTransactionsList (files ++ [file]) = file := by
  rw [loadTransactionsList, List.foldl_append]
  rfl

/-- The files before the last one have no transactions. -/
def OnlyLast (files : List TransactionsFile) : Prop := ∀ file ∈ files.dropLast, file.items = []

theorem flatMap_eq_of_onlyLast {α : Type} {f : TransactionsFile → List α} {file : TransactionsFile}
    (hempty : ∀ file : TransactionsFile, file.items = [] → f file = [])
    (h : ∀ other ∈ files, other.items = []) : (files ++ [file]).flatMap f = f file := by
  have hfiles : files.flatMap f = [] := by
    rw [List.flatMap_eq_nil_iff]
    exact fun other hother => hempty other (h other hother)
  rw [List.flatMap_append, hfiles, List.nil_append, List.flatMap_singleton]

theorem keys_of_empty (file : TransactionsFile) (h : file.items = []) : file.keys = [] := by
  rw [Dict.keys, h, List.map_nil]

theorem solTxs_of_empty (file : TransactionsFile) (h : file.items = []) : solTxs file = [] := by
  rw [solTxs, h, List.flatMap_nil]

theorem keys_perm_iff :
    (loadTransactionsList files).keys.Perm (files.flatMap Dict.keys) ↔ OnlyLast files := by
  induction files using List.reverseRecOn with
  | nil => simp [loadTransactionsList, OnlyLast, Dict.keys, Dict.empty]
  | append_singleton files file _ =>
    rw [loadTransactionsList_concat, OnlyLast, List.dropLast_concat]
    constructor
    · intro hperm other hother
      have hlength := hperm.length_eq
      rw [List.flatMap_append, List.flatMap_singleton, List.length_append] at hlength
      have hnone : files.flatMap Dict.keys = [] := List.eq_nil_of_length_eq_zero (by omega)
      exact List.map_eq_nil_iff.mp (List.flatMap_eq_nil_iff.mp hnone other hother)
    · intro hfiles
      rw [flatMap_eq_of_onlyLast keys_of_empty hfiles]

theorem solTxs_perm_iff (h : OnlyLast files) :
    ((solTxs (loadTransactionsList files)).take (loadTransactionsList files).items.length).Perm
        (files.flatMap solTxs) ↔
      (solTxs (loadTransactionsList files)).length ≤
        (loadTransactionsList files).items.length := by
  have hall : files.flatMap solTxs = solTxs (loadTransactionsList files) := by
    induction files using List.reverseRecOn with
    | nil => rfl
    | append_singleton files file _ =>
      rw [OnlyLast, List.dropLast_concat] at h
      rw [loadTransactionsList_concat, flatMap_eq_of_onlyLast solTxs_of_empty h]
  rw [hall]
  constructor
  · intro hperm
    have hlength := hperm.length_eq
    rw [List.length_take] at hlength
    omega
  · intro hle
    rw [List.take_of_length_le hle]

/-- Everything is looked up and counted, if and only if all is in the last file, this has no more
Solana transactions than Neon transactions, and the client answers for each of them. -/
theorem run_covers_iff :
    Covers clients files (run started clients files) ↔
      OnlyLast files ∧
      (solTxs (loadTransactionsList files)).length ≤ (loadTransactionsList files).items.length ∧
      Answers clients (solTxs (loadTransactionsList files)) := by
  constructor
  · intro h
    have hneon := h.neon
    rw [neonLookups_run, keys_perm_iff] at hneon
    obtain ⟨report, hreport, -⟩ := h.printed
    obtain ⟨results, hresults⟩ := answered_of_report hreport
    have hsol := h.sol
    rw [(run_of_answered hresults).1, map_fst_solCalls, solTxs_perm_iff hneon] at hsol
    have hanswers := answered_iff.mp ⟨results, hresults⟩
    rw [List.take_of_length_le hsol] at hanswers
    exact ⟨hneon, hsol, hanswers⟩
  · intro ⟨hlast, hsol, hanswers⟩
    rw [← List.take_of_length_le hsol] at hanswers
    obtain ⟨results, hresults⟩ := answered_iff.mpr hanswers
    obtain ⟨hmade, report, hreport, -⟩ :
        (run started clients files).solLookups = _ ∧ _ := run_of_answered hresults
    refine ⟨?_, ?_, report, hreport, counts_run hreport⟩
    · rwa [neonLookups_run, keys_perm_iff]
    · rwa [hmade, map_fst_solCalls, solTxs_perm_iff hlast]

/-- No Neon transaction is looked up twice. -/
theorem nodup_neonLookups (started : Nat) (clients : Clients ε ρ σ)
    (files : List TransactionsFile) : (run started clients files).neonLookups.Nodup := by
  rw [neonLookups_run]
  exact (loadTransactionsList files).nodup

/-- What is looked up was in the last file, and in the order of the file, whatever is raised. -/
theorem solLookups_prefix (started : Nat) (clients : Clients ε ρ σ)
    (files : List TransactionsFile) :
    (run started clients files).solLookups <+: solTxs (loadTransactionsList files) := by
  have hmade : (poolMap started (fun call : String × Clients ε ρ σ => checkSolTx call.1 call.2)
      (solCalls clients files)).1 <+: solCalls clients files := by
    rw [poolMap]
    split
    · exact List.prefix_refl _
    · exact List.take_prefix _ _
  have hlookups := hmade.map Prod.fst
  rw [map_fst_solCalls] at hlookups
  exact hlookups.trans (List.take_prefix _ _)

/-- Two files of one transaction each, with their Solana transactions. -/
def twoFiles : List TransactionsFile :=
  [⟨[("0x1", ["s1"])], List.nodup_singleton _⟩, ⟨[("0x2", ["s2", "s3"])], List.nodup_singleton _⟩]

/-- Clients that find every transaction. -/
def found : Clients Unit Unit Unit := ⟨fun _ => .ok (), fun _ => .ok (some ())⟩

/-- The first file is not checked, nor the second Solana transaction of the last one. -/
theorem run_twoFiles :
    (run 10 found twoFiles).neonLookups = ["0x2"] ∧ (run 10 found twoFiles).solLookups = ["s2"] ∧
    ¬Covers found twoFiles (run 10 found twoFiles) := by
  have hneon : (run 10 found twoFiles).neonLookups = ["0x2"] := neonLookups_run
  refine ⟨hneon, rfl, fun h => ?_⟩
  have hperm := h.neon
  rw [hneon] at hperm
  exact absurd hperm.length_eq (by decide)

end NeonTests.LostTransactions
