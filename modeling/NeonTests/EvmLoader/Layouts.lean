import NeonTests.Lib.Format

/-!
# Accounts of the loader — their layouts

The structures of `utils/layouts.py` that accounts are read with. Each has one size, so an
account is parsed exactly if it has that many bytes; what is behind them is not looked at.
-/

namespace NeonTests.EvmLoader

open Endian Formats Formats.Format

structure HolderAccountInfo where
  tag : Int
  headerVersion : Int
  owner : Bytes
  hash : Bytes
  len : Int
  heapOffset : Int
  deriving DecidableEq, Repr

def holderAccountInfoLayout : Format HolderAccountInfo :=
  ((uint 1).seq ((uint 1).seq ((bytes 32).seq ((bytes 32).seq ((uint 8).seq (uint 8)))))).iso {
    toFun := fun ⟨tag, headerVersion, owner, hash, len, heapOffset⟩ =>
      ⟨tag, headerVersion, owner, hash, len, heapOffset⟩
    invFun := fun a => ⟨a.tag, a.headerVersion, a.owner, a.hash, a.len, a.heapOffset⟩ }

structure ContractAccount where
  type : Int
  headerVersion : Int
  address : Bytes
  chainId : Int
  generation : Int
  revision : Int
  deriving DecidableEq, Repr

def contractAccountLayout : Format ContractAccount :=
  ((uint 1).seq ((uint 1).seq ((bytes 20).seq ((uint 8).seq ((uint 4).seq (uint 4)))))).iso {
    toFun := fun ⟨type, headerVersion, address, chainId, generation, revision⟩ =>
      ⟨type, headerVersion, address, chainId, generation, revision⟩
    invFun := fun a =>
      ⟨a.type, a.headerVersion, a.address, a.chainId, a.generation, a.revision⟩ }

structure BalanceAccount where
  type : Int
  headerVersion : Int
  address : Bytes
  chainId : Int
  trxCount : Int
  balance : Bytes
  deriving DecidableEq, Repr

def balanceAccountLayout : Format BalanceAccount :=
  ((uint 1).seq ((uint 1).seq ((bytes 20).seq ((uint 8).seq ((uint 8).seq (bytes 32)))))).iso {
    toFun := fun ⟨type, headerVersion, address, chainId, trxCount, balance⟩ =>
      ⟨type, headerVersion, address, chainId, trxCount, balance⟩
    invFun := fun a => ⟨a.type, a.headerVersion, a.address, a.chainId, a.trxCount, a.balance⟩ }

structure StorageCell where
  type : Int
  headerVersion : Int
  revision : Int
  deriving DecidableEq, Repr

def storageCellLayout : Format StorageCell :=
  ((uint 1).seq ((uint 1).seq (uint 4))).iso {
    toFun := fun ⟨type, headerVersion, revision⟩ => ⟨type, headerVersion, revision⟩
    invFun := fun a => ⟨a.type, a.headerVersion, a.revision⟩ }

-- ---------------------------------------------------------------------------
-- Sizes
-- ---------------------------------------------------------------------------

theorem fixedSize_holderAccountInfo : FixedSize holderAccountInfoLayout 82 :=
  ((fixedSize_uint 1).seq ((fixedSize_uint 1).seq ((fixedSize_bytes 32).seq
    ((fixedSize_bytes 32).seq ((fixedSize_uint 8).seq (fixedSize_uint 8)))))).iso _

theorem fixedSize_contractAccount : FixedSize contractAccountLayout 38 :=
  ((fixedSize_uint 1).seq ((fixedSize_uint 1).seq ((fixedSize_bytes 20).seq
    ((fixedSize_uint 8).seq ((fixedSize_uint 4).seq (fixedSize_uint 4)))))).iso _

theorem fixedSize_balanceAccount : FixedSize balanceAccountLayout 70 :=
  ((fixedSize_uint 1).seq ((fixedSize_uint 1).seq ((fixedSize_bytes 20).seq
    ((fixedSize_uint 8).seq ((fixedSize_uint 8).seq (fixedSize_bytes 32)))))).iso _

theorem fixedSize_storageCell : FixedSize storageCellLayout 6 :=
  ((fixedSize_uint 1).seq ((fixedSize_uint 1).seq (fixedSize_uint 4))).iso _

end NeonTests.EvmLoader
