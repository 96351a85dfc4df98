import NeonTests.Lib.Script
import NeonTests.Lib.Segments
import NeonTests.Solana.Types

/-!
# Holder upload — the script and the account

`write_transaction_to_holder_account` of `utils/evm_loader.py` with
`make_WriteHolder` of `utils/instructions.py`. A run is a script over the list of
calls made to the node, so that what was sent is known even where a call fails.

The node is a parameter: it answers each call knowing all calls before it. So is
the on-chain program, of which only the documented write is used
(`HolderProgram`).
-/

namespace NeonTests.Holder

open Endian Python Scripts Segments Solana

-- ---------------------------------------------------------------------------
-- make_WriteHolder
-- ---------------------------------------------------------------------------

def makeWriteHolder (operator evmLoaderId holderAccount : Pubkey) (hash : Bytes) (offset : Int)
    (payload : Bytes) : Except PyError Instruction := do
  let d ← toBytesLittle offset 8
  return {
    programId := evmLoaderId
    data := [0x26] ++ hash ++ d ++ payload
    accounts := [
      { pubkey := holderAccount, isSigner := false, isWritable := true },
      { pubkey := operator, isSigner := true, isWritable := false }] }

-- ---------------------------------------------------------------------------
-- The node
-- ---------------------------------------------------------------------------

/-- A call to the node, as the client makes it. -/
inductive RpcCall
  | sendTransaction (trx : Transaction) (signer : Keypair) (opts : TxOpts)
  | confirmTransaction (signature : Signature) (commitment : Commitment)
  deriving DecidableEq, Repr

/-- The node's answers: to a call, given the calls that came before it. -/
structure SolanaClient where
  onSend : List RpcCall → RpcCall → Except PyError Signature
  onConfirm : List RpcCall → RpcCall → Except PyError Unit

def SolanaClient.sendTransaction (client : SolanaClient) (trx : Transaction) (signer : Keypair)
    (opts : TxOpts) : Script PyError (List RpcCall) Signature :=
  step fun calls =>
    (client.onSend calls (.sendTransaction trx signer opts),
      calls ++ [.sendTransaction trx signer opts])

def SolanaClient.confirmTransaction (client : SolanaClient) (signature : Signature)
    (commitment : Commitment) : Script PyError (List RpcCall) Unit :=
  step fun calls =>
    (client.onConfirm calls (.confirmTransaction signature commitment),
      calls ++ [.confirmTransaction signature commitment])

-- ---------------------------------------------------------------------------
-- write_transaction_to_holder_account
-- ---------------------------------------------------------------------------

/-- What the script reads of an `eth_account` `SignedTransaction`. -/
structure SignedTransaction where
  rawTransaction : Bytes
  hash : Bytes
  /-- a keccak digest -/
  length_hash : hash.length = 32

/-- The options of every send: no confirmation is waited for. -/
def sendOpts : TxOpts := { skipConfirmation := true, preflightCommitment := .confirmed }

/-- The `while len(rest)` loop: cut 920 bytes off, send them, move the offset. -/
def sendParts (client : SolanaClient) (loaderId : Pubkey) (signedTx : SignedTransaction)
    (holderAccount : Pubkey) (operator : Keypair) (rest : Bytes) (offset : Int)
    (receipts : List Signature) : Script PyError (List RpcCall) (List Signature) :=
  if rest.length = 0 then pure receipts
  else do
    let part := rest.take 920
    let trx ← liftM (makeWriteHolder operator.pubkey loaderId holderAccount signedTx.hash offset part)
    let receipt ← client.sendTransaction (Transaction.new.add trx) operator sendOpts
    sendParts client loaderId signedTx holderAccount operator (rest.drop 920)
      (offset + part.length) (receipts ++ [receipt])
termination_by rest.length
decreasing_by rw [List.length_drop]; omega

/-- The `for rcpt in receipts` loop. -/
def confirmParts (client : SolanaClient) :
    List Signature → Script PyError (List RpcCall) Unit
  | [] => pure ()
  | rcpt :: receipts => do
    client.confirmTransaction rcpt .confirmed
    confirmParts client receipts

def writeTransactionToHolderAccount (client : SolanaClient) (loaderId : Pubkey)
    (signedTx : SignedTransaction) (holderAccount : Pubkey) (operator : Keypair) :
    Script PyError (List RpcCall) Unit := do
  let receipts ← sendParts client loaderId signedTx holderAccount operator
    signedTx.rawTransaction 0 []
  confirmParts client receipts

/-- The instructions put into flight by a list of calls. -/
def sentInstructions (calls : List RpcCall) : List Instruction :=
  calls.flatMap fun
    | .sendTransaction trx _ _ => trx.instructions
    | .confirmTransaction _ _ => []

-- ---------------------------------------------------------------------------
-- The account on chain
-- ---------------------------------------------------------------------------

/-- The hash and the segment an instruction's data carries: tag `0x26`, 32 bytes
of hash, 8 bytes of little-endian offset, the payload. -/
def decodeWriteHolder : Bytes → Option (Bytes × Segment UInt8)
  | [] => none
  | tag :: body =>
    if tag = 0x26 ∧ 40 ≤ body.length then
      some (body.take 32, ⟨leNat ((body.drop 32).take 8), body.drop 40⟩)
    else none

/-- The on-chain program: what an instruction's data does to the holder's
buffer. The one thing known of it is how it carries out a write. -/
structure HolderProgram where
  process : Bytes → Bytes → Bytes
  process_writes : ∀ buf data hash s, decodeWriteHolder data = some (hash, s) →
    Writes s buf (process buf data)

/-- The program that grows an account with zeros. -/
def HolderProgram.zeroFilling : HolderProgram where
  process buf data := match decodeWriteHolder data with
    | none => buf
    | some (_, s) => overwrite 0 s buf
  process_writes buf data hash s h := by
    rw [h]
    exact writes_overwrite 0 s buf

/-- The holder's buffer after the instructions landed, first to last. -/
def HolderProgram.land (program : HolderProgram) (buf : Bytes) (landed : List Instruction) : Bytes :=
  landed.foldl (fun buf ix => program.process buf ix.data) buf

end NeonTests.Holder
