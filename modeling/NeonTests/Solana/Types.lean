import NeonTests.Lib.Python

/-!
# Solana values — as the scripts build them

The `solders` classes the modelled scripts construct and read: keys, account
metas, instructions and the transactions that carry them.
-/

namespace NeonTests.Solana

open Endian

/-- 32 bytes, by construction. -/
structure Pubkey where
  bytes : Vector UInt8 32
  deriving DecidableEq, Repr

/-- A key pair, known by its public half. -/
structure Keypair where
  pubkey : Pubkey
  deriving DecidableEq, Repr

structure AccountMeta where
  pubkey : Pubkey
  isSigner : Bool
  isWritable : Bool
  deriving DecidableEq, Repr

structure Instruction where
  programId : Pubkey
  data : Bytes
  accounts : List AccountMeta
  deriving DecidableEq, Repr

/-- `solana.transaction.Transaction`: the instructions added so far. -/
structure Transaction where
  instructions : List Instruction
  deriving DecidableEq, Repr

def Transaction.new : Transaction := ⟨[]⟩

def Transaction.add (trx : Transaction) (ix : Instruction) : Transaction :=
  ⟨trx.instructions ++ [ix]⟩

inductive Commitment
  | processed
  | confirmed
  | finalized
  deriving DecidableEq, Repr

/-- The fields of `TxOpts` the scripts set. -/
structure TxOpts where
  skipConfirmation : Bool
  preflightCommitment : Commitment
  deriving DecidableEq, Repr

/-- A transaction's signature, `SendTransactionResp.value`: 64 bytes. -/
abbrev Signature := Vector UInt8 64

end NeonTests.Solana
