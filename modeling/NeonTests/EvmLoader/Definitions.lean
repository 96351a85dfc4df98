import NeonTests.Lib.Polling
import NeonTests.Lib.Text
import NeonTests.Solana.Types

/-!
# Iterative execution — the step instructions and the three drivers

`execute_transaction_steps_from_instruction`, `..._from_account` and
`..._from_account_no_chain_id` of `utils/evm_loader.py` with what they send, from
`utils/instructions.py`. A run is a script over the list of transactions submitted so far; the
receipts are a stream, one for each submission. A run without fuel left ends in a
`recursionError`, which the program itself has not.
-/

namespace NeonTests.EvmLoader

open Endian Python Scripts Solana Text

-- ---------------------------------------------------------------------------
-- Instructions
-- ---------------------------------------------------------------------------

/-- `COMPUTE_BUDGET_ID` -/
def computeBudgetId : Pubkey :=
  ⟨#v[3, 6, 70, 111, 229, 33, 23, 50, 255, 236, 173, 186, 114, 195, 155, 231, 188, 140, 229, 187,
    197, 247, 18, 107, 44, 67, 155, 58, 64, 0, 0, 0]⟩

/-- `sp.ID` -/
def systemProgram : Pubkey := ⟨.replicate 32 0⟩

/-- An instruction to the compute budget program. -/
def computeBudget (operator : Keypair) (data : Bytes) : Instruction where
  programId := computeBudgetId
  accounts := [{ pubkey := operator.pubkey, isSigner := true, isWritable := false }]
  data := data

def requestUnits (operator : Keypair) (units : Int) : Except PyError Instruction := do
  return computeBudget operator (0x02 :: (← toBytesLittle units 4))

def requestHeapFrame (operator : Keypair) (heapFrame : Int) : Except PyError Instruction := do
  return computeBudget operator (0x01 :: (← toBytesLittle heapFrame 4))

def setComputeUnitsPrice (price : Int) (operator : Keypair) : Except PyError Instruction := do
  return computeBudget operator (0x03 :: (← toBytesLittle price 8))

/-- `TransactionWithComputeBudget`, with `DEFAULT_UNITS` and `DEFAULT_HEAP_FRAME`. -/
def transactionWithComputeBudget (operator : Keypair) (computeUnitPrice : Option Int) :
    Except PyError Transaction := do
  let trx := Transaction.new.add (← requestUnits operator 1400000)
  let trx := trx.add (← requestHeapFrame operator (256 * 1024))
  match computeUnitPrice with
  | some price =>
    if price = 0 then return trx else return trx.add (← setComputeUnitsPrice price operator)
  | none => return trx

structure TreasuryPool where
  account : Pubkey
  buffer : Bytes
  deriving DecidableEq, Repr

/-- The accounts of a step. -/
def stepAccounts (operator : Keypair) (operatorBalance holderAddress : Pubkey)
    (treasury : TreasuryPool) (additionalAccounts : List Pubkey) : List AccountMeta :=
  [{ pubkey := holderAddress, isSigner := false, isWritable := true },
    { pubkey := operator.pubkey, isSigner := true, isWritable := true },
    { pubkey := treasury.account, isSigner := false, isWritable := true },
    { pubkey := operatorBalance, isSigner := false, isWritable := true },
    { pubkey := systemProgram, isSigner := false, isWritable := true }] ++
  additionalAccounts.map fun acc => { pubkey := acc, isSigner := false, isWritable := true }

def makeExecuteTrxFromAccountDataIterativeOrContinue (index stepCount : Int) (operator : Keypair)
    (operatorBalance evmLoaderId holderAddress : Pubkey) (treasury : TreasuryPool)
    (additionalAccounts : List Pubkey) (tag : Int) : Except PyError Instruction := do
  let data := (← toBytesLittle tag 1) ++ treasury.buffer ++ (← toBytesLittle stepCount 4) ++
    (← toBytesLittle index 4)
  return {
    programId := evmLoaderId
    data := data
    accounts := stepAccounts operator operatorBalance holderAddress treasury additionalAccounts }

def makePartialCallOrContinueFromRawEthereumTX (index stepCount : Int) (instruction : Bytes)
    (operator : Keypair) (operatorBalance evmLoaderId storageAddress : Pubkey)
    (treasury : TreasuryPool) (additionalAccounts : List Pubkey) (tag : UInt8) :
    Except PyError Instruction := do
  let data := [tag] ++ treasury.buffer ++ (← toBytesLittle stepCount 4) ++
    (← toBytesLittle index 4) ++ instruction
  return {
    programId := evmLoaderId
    data := data
    accounts := stepAccounts operator operatorBalance storageAddress treasury additionalAccounts }

-- ---------------------------------------------------------------------------
-- The node
-- ---------------------------------------------------------------------------

/-- What is read of a `GetTransactionResp`. -/
structure Receipt where
  /-- `meta.err` as it is printed; `none` when it is falsy -/
  err : Option String
  logMessages : List String
  deriving DecidableEq, Repr

structure Submission where
  trx : Transaction
  signer : Keypair
  deriving DecidableEq, Repr

/-- The loader, and what the node answers it. -/
structure Loader where
  loaderId : Pubkey
  getOperatorBalancePubkey : Keypair → Pubkey
  /-- the receipt of each submission -/
  receipts : Nat → Receipt
  /-- `f"{receipt}"` -/
  receiptText : Receipt → String

abbrev Run := Script PyError (List Submission)

namespace Loader

def sendTx (loader : Loader) (trx : Transaction) (signer : Keypair) : Run Receipt :=
  step fun sent => (.ok (loader.receipts sent.length), sent ++ [⟨trx, signer⟩])

variable (loader : Loader) (operator : Keypair) (operatorBalance : Pubkey)
  (treasury : TreasuryPool) (storageAccount : Pubkey)

def sendTransactionStepFromInstruction (instruction : Bytes) (additionalAccounts : List Pubkey)
    (stepsCount : Int) (signer : Keypair) (index : Int) : Run Receipt := do
  let trx ← liftM (transactionWithComputeBudget operator none)
  let ix ← liftM (makePartialCallOrContinueFromRawEthereumTX index stepsCount instruction operator
    operatorBalance loader.loaderId storageAccount treasury additionalAccounts 0x34)
  loader.sendTx (trx.add ix) signer

def sendTransactionStepFromAccount (additionalAccounts : List Pubkey) (stepsCount : Int)
    (signer : Keypair) (computeUnitPrice : Option Int) (tag index : Int) : Run Receipt := do
  let trx ← liftM (transactionWithComputeBudget operator computeUnitPrice)
  let ix ← liftM (makeExecuteTrxFromAccountDataIterativeOrContinue index stepsCount operator
    operatorBalance loader.loaderId storageAccount treasury additionalAccounts tag)
  loader.sendTx (trx.add ix) signer

-- ---------------------------------------------------------------------------
-- The drivers
-- ---------------------------------------------------------------------------

/-- The loop over the log: whether the transaction is done. -/
def scanLogs (receipt : Receipt) : List String → Except PyError Bool
  | [] => return false
  | log :: logs =>
    if contains log "exit_status" then return true
    else if contains log "ExitError" then
      throw (.assertion ("EVM Return error in logs: " ++ loader.receiptText receipt))
    else scanLogs receipt logs

/-- `EVM_STEPS` -/
def evmSteps : Int := 500

/-- The `while not done` loop of `execute_transaction_steps_from_instruction`. -/
def stepsFromInstruction (instruction : Bytes) (additionalAccounts : List Pubkey)
    (signer : Keypair) : (fuel index : Nat) → Run Receipt
  | 0, _ => fail .recursionError
  | fuel + 1, index => do
    let receipt ← loader.sendTransactionStepFromInstruction operator operatorBalance treasury
      storageAccount instruction additionalAccounts evmSteps signer index
    match receipt.err with
    | some err => fail (.assertion ("Transaction failed with error: " ++ err))
    | none =>
      let done ← liftM (loader.scanLogs receipt receipt.logMessages)
      if done then return receipt
      else stepsFromInstruction instruction additionalAccounts signer fuel (index + 1)

/-- The `while not done` loop of `execute_transaction_steps_from_account`. -/
def stepsFromAccount (additionalAccounts : List Pubkey) (signer : Keypair)
    (computeUnitPrice : Option Int) : (fuel index : Nat) → Run Receipt
  | 0, _ => fail .recursionError
  | fuel + 1, index => do
    let receipt ← loader.sendTransactionStepFromAccount operator operatorBalance treasury
      storageAccount additionalAccounts evmSteps signer computeUnitPrice 0x35 index
    match receipt.err with
    | some err => fail (.assertion ("Can't deploy contract: " ++ err))
    | none =>
      let done ← liftM (loader.scanLogs receipt receipt.logMessages)
      if done then return receipt
      else stepsFromAccount additionalAccounts signer computeUnitPrice fuel (index + 1)

/-- The `while not done` loop of `execute_transaction_steps_from_account_no_chain_id`. -/
def stepsFromAccountNoChainId (additionalAccounts : List Pubkey) (signer : Keypair) :
    (fuel index : Nat) → Run Receipt
  | 0, _ => fail .recursionError
  | fuel + 1, index => do
    let receipt ← loader.sendTransactionStepFromAccount operator operatorBalance treasury
      storageAccount additionalAccounts evmSteps signer none 0x36 index
    match receipt.err with
    | some err => fail (.assertion ("Can't deploy contract: " ++ err))
    | none =>
      let done ← liftM (loader.scanLogs receipt receipt.logMessages)
      if done then return receipt
      else stepsFromAccountNoChainId additionalAccounts signer fuel (index + 1)

/-- With the raw bytes of the signed transaction. -/
def executeTransactionStepsFromInstruction (instruction : Bytes)
    (additionalAccounts : List Pubkey) (signer : Option Keypair) (fuel : Nat) : Run Receipt :=
  loader.stepsFromInstruction operator (loader.getOperatorBalancePubkey operator) treasury
    storageAccount instruction additionalAccounts (signer.getD operator) fuel 0

def executeTransactionStepsFromAccount (additionalAccounts : List Pubkey)
    (signer : Option Keypair) (computeUnitPrice : Option Int) (fuel : Nat) : Run Receipt :=
  loader.stepsFromAccount operator (loader.getOperatorBalancePubkey operator) treasury
    storageAccount additionalAccounts (signer.getD operator) computeUnitPrice fuel 0

def executeTransactionStepsFromAccountNoChainId (additionalAccounts : List Pubkey)
    (signer : Option Keypair) (fuel : Nat) : Run Receipt :=
  loader.stepsFromAccountNoChainId operator (loader.getOperatorBalancePubkey operator) treasury
    storageAccount additionalAccounts (signer.getD operator) fuel 0

end Loader

end NeonTests.EvmLoader
