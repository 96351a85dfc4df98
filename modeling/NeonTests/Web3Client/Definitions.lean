import NeonTests.Lib.Python
import NeonTests.Lib.Text

/-!
# Web3 client — building transactions

`make_raw_tx` of `utils/web3client.py` builds a transaction of either type from the arguments that
are given, and asks the node for the others; the one of EIP-1559 in a loop over the parameters,
where `"auto"` stands for a value to ask for.
-/

namespace NeonTests.Web3Client

open Python Fallible Text

/-! ## Arguments -/

inductive TransactionType
  | legacy
  | eip1559
  deriving DecidableEq, Repr

/-- `Union[str, LocalAccount]` -/
inductive Account
  | text (address : String)
  | localAccount (address : String)
  deriving DecidableEq, Repr

def Account.address : Account → String
  | text address => address
  | localAccount address => address

/-- What a parameter or a field of a transaction can be; `ν` are the numbers of an amount. -/
inductive Value (ν : Type)
  | int (n : Int)
  | amount (a : ν)
  | text (s : String)
  | bytes (b : List UInt8)
  deriving DecidableEq, Repr

variable {ν : Type} [DecidableEq ν]

abbrev Tx (ν : Type) [DecidableEq ν] := Dict String (Value ν)

/-- The arguments of `make_raw_tx`, without the type. -/
structure Arguments (ν : Type) where
  from_ : Account
  to_ : Option Account
  amount : Option ν
  gas : Option Int
  gasPrice : Option Int
  nonce : Option Int
  chainId : Option Int
  data : Option (Value ν)
  estimateGas : Bool

/-- The answers of the node. `maxFee base priority` is `int(base * 1.1 + priority)`. -/
structure Node (ν : Type) [DecidableEq ν] where
  chainId : Except PyError Int
  nonce : String → Except PyError Int
  gasPrice : Except PyError Int
  baseFeePerGas : Except PyError Int
  maxPriorityFee : Except PyError Int
  estimateGas : Tx ν → Except PyError Int
  maxFee : Int → Int → Int

/-- `bool(value)` -/
def Value.truthy [Zero ν] : Value ν → Bool
  | int n => n ≠ 0
  | amount a => a ≠ 0
  | text s => s ≠ ""
  | bytes b => b ≠ []

/-- `if value: tx[key] = value` -/
def setSome (tx : Tx ν) (key : String) : Option (Value ν) → Tx ν
  | some v => tx.set key v
  | none => tx

/-! ## Legacy transactions -/

/-- `to`, if `bool(to)`: every account is true. -/
def toField : Account → Option (Value ν)
  | .localAccount address => some (.text address)
  | .text s => if s = "" then none else some (.text s)

/-- A value that is given, or the answer for it. -/
def orAsk (value : Option Int) (ask : Except PyError Int) : Except PyError Int :=
  match value with
  | none => ask
  | some value => .ok value

def legacyGas (node : Node ν) (a : Arguments ν) (tx : Tx ν) : Except PyError Int :=
  if a.estimateGas ∧ a.gas.getD 0 = 0 then node.estimateGas tx else .ok (a.gas.getD 0)

def makeRawTxLegacy [Zero ν] (node : Node ν) (a : Arguments ν) : Except PyError (Tx ν) := do
  let tx := Dict.empty.set "from" (.text a.from_.address)
  let tx := setSome tx "to" (a.to_.bind toField)
  let tx := setSome tx "value" ((a.amount.map Value.amount).filter Value.truthy)
  let tx := setSome tx "data" (a.data.filter Value.truthy)
  let nonce ← orAsk a.nonce (node.nonce a.from_.address)
  let tx := tx.set "nonce" (.int nonce)
  let chainId ← orAsk a.chainId node.chainId
  let tx := if a.chainId = some 0 then tx else tx.set "chainId" (.int chainId)
  let gasPrice ← orAsk a.gasPrice node.gasPrice
  let tx := tx.set "gasPrice" (.int gasPrice)
  let gas ← legacyGas node a tx
  pure (setSome tx "gas" (if gas = 0 then none else some (.int gas)))

/-! ## Transactions of EIP-1559 -/

/-- `x.title()` of a word in letters -/
def title : List Char → List Char
  | [] => []
  | c :: cs => c.toUpper :: cs.map Char.toLower

def caseSnakeToCamel (snake : String) : String :=
  match split snake '_' with
  | [] => ""
  | first :: components => String.ofList
    (first.toList.map Char.toLower ++ components.flatMap fun x => title x.toList)

def auto : Value ν := .text "auto"

/-- `auto_map[name]()`, `base` being what `base_fee_per_gas` is. -/
def autoValue (node : Node ν) (sender : String) (base : Int) (params : Tx ν) :
    String → Except PyError (Value ν)
  | "chain_id" => Value.int <$> node.chainId
  | "nonce" => Value.int <$> node.nonce sender
  | "gas" => Value.int <$> node.estimateGas params
  | "max_priority_fee_per_gas" => Value.int <$> node.maxPriorityFee
  | "max_fee_per_gas" =>
    match params.get? "maxPriorityFeePerGas" with
    | some (.int priority) => .ok (.int (node.maxFee base priority))
    | some _ => .error .typeError
    | none => .error (.keyError "maxPriorityFeePerGas")
  | name => .error (.keyError name)

def paramValue (node : Node ν) (sender : String) (base : Int) (params : Tx ν) (name : String)
    (value : Value ν) : Except PyError (Value ν) :=
  if value = auto then autoValue node sender base params name else .ok value

/-- The body of the loop over the parameters. -/
def addParam (node : Node ν) (sender : String) (base : Int) (params : Tx ν)
    (kwarg : String × Option (Value ν)) : Except PyError (Tx ν) :=
  match kwarg.2 with
  | none => .ok params
  | some value => do
    let value ← paramValue node sender base params kwarg.1 value
    pure (params.set (caseSnakeToCamel kwarg.1) value)

/-- The parameters of `make_raw_tx_eip_1559`; those of the gas come last. -/
structure Eip1559 (ν : Type) where
  chainId : Option (Value ν)
  from_ : Account
  to_ : Option Account
  value : Option (Value ν)
  nonce : Option (Value ν)
  data : Option (Value ν)
  accessList : Option (Value ν)
  gas : Option (Value ν)
  maxPriorityFeePerGas : Option (Value ν)
  maxFeePerGas : Option (Value ν)

/-- `kwargs` up to the gas -/
def Eip1559.fields (p : Eip1559 ν) : List (String × Option (Value ν)) :=
  [("chain_id", p.chainId), ("from_", some (.text p.from_.address)),
    ("to", p.to_.map fun account => .text account.address), ("value", p.value), ("nonce", p.nonce),
    ("data", p.data), ("access_list", p.accessList)]

def Eip1559.fees (p : Eip1559 ν) : List (String × Option (Value ν)) :=
  [("gas", p.gas), ("max_priority_fee_per_gas", p.maxPriorityFeePerGas),
    ("max_fee_per_gas", p.maxFeePerGas)]

def addParams (node : Node ν) (sender : String) (base : Int) (params : Tx ν)
    (kwargs : List (String × Option (Value ν))) : Except PyError (Tx ν) :=
  kwargs.foldlM (addParam node sender base) params

/-- `{"type": TransactionType.EIP_1559}` -/
def eip1559Type : Tx ν := Dict.empty.set "type" (.int 2)

/-- `base_fee_per_gas` -/
def baseFee (node : Node ν) (p : Eip1559 ν) : Except PyError Int :=
  if p.maxPriorityFeePerGas = some auto ∨ p.maxFeePerGas = some auto then node.baseFeePerGas
  else .ok 10

def makeRawTxEip1559 (node : Node ν) (p : Eip1559 ν) : Except PyError (Tx ν) := do
  let base ← baseFee node p
  addParams node p.from_.address base eip1559Type (p.fields ++ p.fees)

/-- `gas_price_to_eip1559_params`: the priority fee and the fee. -/
def gasPriceToEip1559Params (node : Node ν) (gasPrice : Int) : Except PyError (Int × Int) := do
  let base ← node.baseFeePerGas
  if base ≤ gasPrice then pure (gasPrice - base, gasPrice)
  else .error (.assertion ("gas_price " ++ toString gasPrice ++
    " is lower than the baseFeePerGas " ++ toString base))

def eip1559Fees (node : Node ν) (a : Arguments ν) : Except PyError (Value ν × Value ν) :=
  match a.gasPrice, a.gas with
  | some gasPrice, some _ => do
    let (priority, fee) ← gasPriceToEip1559Params node gasPrice
    pure (.int priority, .int fee)
  | _, _ => pure (auto, auto)

def eip1559Params (a : Arguments ν) (priority fee : Value ν) : Eip1559 ν where
  chainId := some ((a.chainId.map Value.int).getD auto)
  from_ := a.from_
  to_ := a.to_
  value := a.amount.map Value.amount
  nonce := some ((a.nonce.map Value.int).getD auto)
  data := a.data
  accessList := none
  gas := if a.estimateGas then some auto else a.gas.map Value.int
  maxPriorityFeePerGas := some priority
  maxFeePerGas := some fee

def makeRawTx [Zero ν] (node : Node ν) (a : Arguments ν) :
    TransactionType → Except PyError (Tx ν)
  | .legacy => makeRawTxLegacy node a
  | .eip1559 => do
    let (priority, fee) ← eip1559Fees node a
    makeRawTxEip1559 node (eip1559Params a priority fee)

end NeonTests.Web3Client
