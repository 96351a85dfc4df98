import NeonTests.Lib.AbiType

/-!
# Function signatures — selectors and call data

`get_selectors` and `decode_function_signature` of `utils/helpers.py`. Keccak-256 and
`eth_abi.encode` are parameters. Of an ABI in JSON, what the functions read is modelled; a key
that an object may lack is an `Option`.
-/

namespace NeonTests.Signatures

open AbiTypes Endian Fallible Python Text

/-- A Keccak-256 digest. -/
abbrev Digest := Vector UInt8 32

def selector (keccak : String → Digest) (text : String) : Bytes := (keccak text).toList.take 4

/-- `d[key]` of an object that may lack the key. -/
def getKey {α : Type} (value : Option α) (key : String) : Except PyError α :=
  match value with
  | some v => .ok v
  | none => .error (.keyError key)

-- ---------------------------------------------------------------------------
-- get_selectors
-- ---------------------------------------------------------------------------

/-- An entry of `components`. -/
structure Component where
  name : String
  type : String
  deriving DecidableEq, Repr

/-- An entry of `inputs`. -/
structure Input where
  name : String
  type : String
  internalType : Option String
  components : Option (List Component)
  deriving DecidableEq, Repr

/-- An entry of an ABI. -/
structure AbiEntry where
  type : String
  name : Option String
  inputs : Option (List Input)
  deriving DecidableEq, Repr

def inputType (input : Input) : Except PyError String := do
  let internalType ← getKey input.internalType "internalType"
  if contains internalType "struct" then do
    let structName := input.name
    let components ← getKey input.components "components"
    let structTypes := join ',' ((components.filter fun i => i.name ≠ structName).map Component.type)
    return "(" ++ structTypes ++ ")[]"
  else return input.type

/-- The loop over `inputs`. -/
def inputTypes : String → List Input → Except PyError String
  | types, [] => return types
  | types, input :: inputs => do
    let type ← inputType input
    inputTypes (types ++ "," ++ type) inputs

/-- `s[1:]` -/
def dropFirst (s : String) : String := String.ofList (s.toList.drop 1)

def functionSelector (keccak : String → Digest) (function : AbiEntry) : Except PyError Bytes := do
  let inputs ← getKey function.inputs "inputs"
  let types ← inputTypes "" inputs
  let name ← getKey function.name "name"
  return selector keccak (name ++ "(" ++ dropFirst types ++ ")")

def getSelectors (keccak : String → Digest) (abi : List AbiEntry) : Except PyError (List Bytes) :=
  (abi.filter fun item => item.type = "function").mapM (functionSelector keccak)

-- ---------------------------------------------------------------------------
-- decode_function_signature
-- ---------------------------------------------------------------------------

/-- `xs[i]` -/
def getIndex (xs : List String) (i : Nat) : Except PyError String :=
  match xs[i]? with
  | some x => .ok x
  | none => .error .indexError

/-- `function_name.split("(")[1].split(")")[0].split(",")` -/
def argumentTypes (functionName : String) : Except PyError (List String) := do
  let inner ← getIndex (split functionName '(') 1
  let inner ← getIndex (split inner ')') 0
  return split inner ','

def decodeFunctionSignature {V : Type} (keccak : String → Digest)
    (encode : List String → List V → Except PyError Bytes) (functionName : String)
    (args : Option (List V)) : Except PyError String := do
  let data := selector keccak functionName
  match args with
  | some args =>
    let types ← argumentTypes functionName
    return "0x" ++ hex (data ++ (← encode types args))
  | none => return "0x" ++ hex data

end NeonTests.Signatures
