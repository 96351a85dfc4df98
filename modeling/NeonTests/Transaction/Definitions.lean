import NeonTests.Rlp.Canonical

/-!
# Legacy transactions — the class Trx

`Trx` of `integration/tests/neon_evm/utils/eth_tx_utils.py`: a signed transaction is
read from its RLP encoding, written back by `__str__`, and its sender is recovered from
the message that was signed.

The second half is what the class is about: a signed legacy transaction of Ethereum,
its encoding, and the message its signature is made for. EIP-155 signs the chain id
with the six fields of the call, the scheme before it those fields alone.
-/

namespace NeonTests.Transaction

open Endian Fallible Python Rlp RlpItem

-- ---------------------------------------------------------------------------
-- The class
-- ---------------------------------------------------------------------------

structure Trx where
  nonce : Option Int
  gasPrice : Option Int
  gasLimit : Option Int
  toAddress : PyVal
  value : Option Int
  callData : PyVal
  v : Option Int
  r : Option Int
  s : Option Int

/-- `get_int(a)`; `text a` is `format(a)`. -/
def getInt (text : PyVal → String) : PyVal → Except PyError (Option Int)
  | .int n => .ok (some n)
  | .bytes b => .ok (some (beNat b))
  | .none => .ok none
  | a => .error (.exception ("Invalid convertion from " ++ text a ++ " to int"))

/-- The elements of a value on the right of an unpacking assignment. -/
def elements : PyVal → Except PyError (List PyVal)
  | .list xs => .ok xs
  | .tuple xs => .ok xs
  | .bytes b => .ok (b.map fun c => .int c.toNat)
  | .str s => .ok (s.toList.map fun c => .str (String.singleton c))
  | _ => .error .typeError

/-- `Trx.from_string(s)` -/
def fromString (text : PyVal → String) (s : Bytes) : Except PyError Trx := do
  let (unpacked, _) ← unpack s
  match ← elements unpacked with
  | [nonce, gasPrice, gasLimit, toAddress, value, callData, v, r, s] => do
    let nonce ← getInt text nonce
    let gasPrice ← getInt text gasPrice
    let gasLimit ← getInt text gasLimit
    let value ← getInt text value
    let v ← getInt text v
    let r ← getInt text r
    let s ← getInt text s
    return { nonce, gasPrice, gasLimit, toAddress, value, callData, v, r, s }
  | _ => .error .valueError

/-- An attribute that is an integer or `None`. -/
def ofInt : Option Int → PyVal
  | none => .none
  | some n => .int n

/-- Arithmetic on an attribute raises if it is `None`. -/
def number : Option Int → Except PyError Int
  | none => .error .typeError
  | some n => .ok n

/-- `chain_id()`; `//` rounds down, as `/` does for a positive divisor. -/
def Trx.chainId (t : Trx) : Except PyError Int := do
  let v ← number t.v
  return (v - 1) / 2 - 17

/-- `chain_id or self.chain_id()` -/
def Trx.chainIdOr (t : Trx) : Option Int → Except PyError Int
  | none => t.chainId
  | some c => if c = 0 then t.chainId else .ok c

/-- `self.r.to_bytes(32, "big") if self.r else None`, and the same for `s`. -/
def signatureBytes : Option Int → Except PyError PyVal
  | none => .ok .none
  | some n => if n = 0 then .ok .none else do
    let b ← toBytesBig n 32
    return .bytes b

/-- `__str__` -/
def Trx.str (t : Trx) : Except PyError String := do
  let r ← signatureBytes t.r
  let s ← signatureBytes t.s
  let packed ← pack (.tuple [ofInt t.nonce, ofInt t.gasPrice, ofInt t.gasLimit, t.toAddress,
    ofInt t.value, t.callData, ofInt t.v, r, s])
  return hex packed

/-- `get_msg(chain_id)`: always the nine fields of EIP-155. -/
def Trx.getMsg (t : Trx) (chainId : Option Int) : Except PyError Bytes := do
  let c ← t.chainIdOr chainId
  pack (.tuple [ofInt t.nonce, ofInt t.gasPrice, ofInt t.gasLimit, t.toAddress, ofInt t.value,
    t.callData, .int c, .none, .none])

/-- The packages the signatures are checked with: `pycryptodome` and `eth_keys`. -/
structure Crypto where
  keccak256 : Bytes → Bytes
  Signature : Type
  PublicKey : Type
  /-- `keys.Signature(vrs=[v, r, s])` -/
  signature : Int → Option Int → Option Int → Except PyError Signature
  recoverPublicKeyFromMsgHash : Signature → Bytes → Except PyError PublicKey
  toCanonicalAddress : PublicKey → Bytes

/-- `hash(chain_id)`: the source packs the same fields as in `get_msg`. -/
def Trx.hash (crypto : Crypto) (t : Trx) (chainId : Option Int) : Except PyError Bytes := do
  let trx ← t.getMsg chainId
  return crypto.keccak256 trx

/-- `sender()` -/
def Trx.sender (crypto : Crypto) (t : Trx) : Except PyError String := do
  let msgHash ← t.hash crypto none
  let v ← number t.v
  let sig ← crypto.signature (if v % 2 = 0 then 1 else 0) t.r t.s
  let pub ← crypto.recoverPublicKeyFromMsgHash sig msgHash
  return hex (crypto.toCanonicalAddress pub)

-- ---------------------------------------------------------------------------
-- Ethereum's transactions
-- ---------------------------------------------------------------------------

inductive Scheme
  /-- replay-protected: the chain id is signed, and part of `v` -/
  | eip155 (chainId : Nat)
  | homestead
  deriving DecidableEq, Repr

structure SignedTx where
  nonce : Nat
  gasPrice : Nat
  gasLimit : Nat
  /-- `none` creates a contract -/
  toAddress : Option (Vector UInt8 20)
  value : Nat
  callData : Bytes
  scheme : Scheme
  yParity : Bool
  r : Nat
  s : Nat

def SignedTx.v (t : SignedTx) : Nat :=
  match t.scheme with
  | .eip155 chainId => 2 * chainId + 35 + t.yParity.toNat
  | .homestead => 27 + t.yParity.toNat

def SignedTx.toBytes (t : SignedTx) : Bytes :=
  match t.toAddress with
  | some address => address.toList
  | none => []

def SignedTx.callItems (t : SignedTx) : List Item :=
  [.scalar t.nonce, .scalar t.gasPrice, .scalar t.gasLimit, .string t.toBytes, .scalar t.value,
    .string t.callData]

/-- The signed transaction. -/
def SignedTx.item (t : SignedTx) : Item :=
  .list (t.callItems ++ [.scalar t.v, .scalar t.r, .scalar t.s])

/-- What is signed. -/
def SignedTx.signingItem (t : SignedTx) : Item :=
  .list (t.callItems ++ match t.scheme with
    | .eip155 chainId => [.scalar chainId, .string [], .string []]
    | .homestead => [])

structure SignedTx.WellFormed (t : SignedTx) : Prop where
  encodable : t.item.Encodable
  chainId_pos : ∀ chainId, t.scheme = .eip155 chainId → 1 ≤ chainId
  r_pos : 1 ≤ t.r
  s_pos : 1 ≤ t.s

end NeonTests.Transaction
