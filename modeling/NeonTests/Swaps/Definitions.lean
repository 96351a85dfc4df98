import NeonTests.Lib.Python

/-!
# The swap load test — what one run leaves to the next

`loadtesting/proxy/tests/swaps.py`. A run deploys the contracts or takes them over from
`uniswap_contracts.json`, writes that file, and adds its users to it when it stops; a user
that starts takes over the account of its number. The account libraries, and what the
chain answers, are parameters.

Accounts `A`, Solana keypairs `K` and contract objects `C` are any types.
-/

namespace NeonTests.Swaps

open Endian Fallible Python

-- ---------------------------------------------------------------------------
-- Libraries
-- ---------------------------------------------------------------------------

/-- What `eth.account.from_key` is given. -/
inductive KeyArgument (A : Type)
  | text (key : String)
  | account (a : A)

structure Keys (A K : Type) where
  /-- `account.key.hex()` -/
  keyHex : A → String
  fromKey : KeyArgument A → Except PyError A
  /-- `Keypair.secret` -/
  secret : K → Bytes
  /-- `Keypair.from_bytes` -/
  fromBytes : Bytes → Except PyError K

inductive Token
  | wNEON
  | usdc
  | usdt
  | usdcSpl
  | usdtSpl
  | tokenA
  | tokenB
  deriving DecidableEq, Repr

def Token.name : Token → String
  | .wNEON => "wNEON"
  | .usdc => "USDC"
  | .usdt => "USDT"
  | .usdcSpl => "USDC_SPL"
  | .usdtSpl => "USDT_SPL"
  | .tokenA => "tokenA"
  | .tokenB => "tokenB"

/-- The keys of `token_contracts`, in their order. -/
def Token.all : List Token := [.wNEON, .usdc, .usdt, .usdcSpl, .usdtSpl, .tokenA, .tokenB]

/-- What a run gets from the chain: contracts at known addresses, and new ones. -/
structure Chain (A K C : Type) where
  address : C → String
  newAccount : Except PyError A
  newKeypair : K
  /-- the signer, the saved text of the Solana account, the token and its address -/
  loadToken : A → String → Token → String → Except PyError C
  deployToken : A → K → Token → Except PyError C
  loadFactory : String → Except PyError C
  deployFactory : A → Except PyError C
  loadRouter : String → Except PyError C
  deployRouter : A → C → (Token → C) → Except PyError C
  loadPairs : C → (Token → C) → Except PyError (Dict String C)
  createPairs : A → C → C → (Token → C) → Except PyError (Dict String C)

-- ---------------------------------------------------------------------------
-- The file
-- ---------------------------------------------------------------------------

/-- What the file says; a key may be absent. -/
structure Data where
  signer : Option String
  solanaAccount : Option String
  router : Option String
  factory : Option String
  tokenContracts : Option (Dict String String)
  pairContracts : Option (Dict String String)
  users : Option (Dict String String)

def Data.empty : Data := ⟨none, none, none, none, none, none, none⟩

/-- A file that is not JSON. -/
inductive Contents
  | invalid
  | json (data : Data)

/-- The working directory, and `uniswap_contracts.json` in each. -/
structure World where
  cwd : String
  files : String → Option Contents

def UNISWAP_TMP_DIR : String := "/tmp/uniswap-neon"

def World.write (w : World) (data : Data) : World :=
  { w with files := Function.update w.files w.cwd (some (.json data)) }

/-- The file at the start of a run; what cannot be read counts as empty. -/
def World.load (w : World) : Data :=
  match w.files w.cwd with
  | some (.json data) => data
  | _ => .empty

/-- `key in data and data[key]`, of a text -/
def given (value : Option String) : Option String := value.filter fun s => s ≠ ""

/-- The same of a dictionary. -/
def givenItems (value : Option (Dict String String)) : Option (Dict String String) :=
  value.filter fun d => !d.items.isEmpty

variable {A K C : Type}

-- ---------------------------------------------------------------------------
-- deploy_uniswap_contracts
-- ---------------------------------------------------------------------------

section Deploy

variable (keys : Keys A K) (chain : Chain A K C)

def deploySigner (data : Data) : Except PyError A :=
  match given data.signer with
  | some key => keys.fromKey (.text key)
  | none => chain.newAccount

/-- The token contracts one by one, in the order of both branches. -/
def forTokens (f : Token → Except PyError C) : Except PyError (Token → C) := do
  let wNEON ← f .wNEON
  let usdc ← f .usdc
  let usdt ← f .usdt
  let tokenA ← f .tokenA
  let tokenB ← f .tokenB
  let usdcSpl ← f .usdcSpl
  let usdtSpl ← f .usdtSpl
  return fun
    | .wNEON => wNEON
    | .usdc => usdc
    | .usdt => usdt
    | .usdcSpl => usdcSpl
    | .usdtSpl => usdtSpl
    | .tokenA => tokenA
    | .tokenB => tokenB

/-- `data["solana_account"]` -/
def solanaText (data : Data) : Except PyError String :=
  match data.solanaAccount with
  | some text => .ok text
  | none => .error (.keyError "solana_account")

/-- `token_contracts`, and `solana_account` on the way. -/
def deployTokens (data : Data) (signer : A) : Except PyError (K × (Token → C)) :=
  match givenItems data.tokenContracts with
  | some addresses => do
    let text ← solanaText data
    let secret ← fromHex text
    let keypair ← keys.fromBytes secret
    let contracts ← forTokens fun token => do
      let address ← getItem addresses token.name
      chain.loadToken signer text token address
    return (keypair, contracts)
  | none => do
    let contracts ← forTokens (chain.deployToken signer chain.newKeypair)
    return (chain.newKeypair, contracts)

def deployFactory (data : Data) (signer : A) : Except PyError C :=
  match given data.factory with
  | some address => chain.loadFactory address
  | none => chain.deployFactory signer

def deployRouter (data : Data) (signer : A) (factory : C) (tokens : Token → C) :
    Except PyError C :=
  match given data.router with
  | some address => chain.loadRouter address
  | none => chain.deployRouter signer factory tokens

/-- The pairs; only the branch that creates them goes back to the directory of the start. -/
def deployPairs (data : Data) (signer : A) (factory router : C) (tokens : Token → C) (w : World) :
    Except PyError (Dict String C × World) :=
  match givenItems data.pairContracts with
  | some _ => do
    let pairs ← chain.loadPairs factory tokens
    return (pairs, { w with cwd := UNISWAP_TMP_DIR })
  | none => do
    let pairs ← chain.createPairs signer factory router tokens
    return (pairs, w)

/-- What the run works with. -/
structure Deployment (A K C : Type) where
  signer : A
  solanaAccount : K
  router : C
  factory : C
  tokenContracts : Token → C
  pairContracts : Dict String C

inductive Value (A K C : Type)
  | account (a : A)
  | keypair (k : K)
  | contract (c : C)
  | contracts (cs : Dict String C)
  | keys (ks : Dict String String)

/-- The second `data`, which replaces the one that was read. -/
def Deployment.data (d : Deployment A K C) : Dict String (Value A K C) :=
  Dict.ofList [
    ("signer", .account d.signer),
    ("solana_account", .keypair d.solanaAccount),
    ("router", .contract d.router),
    ("factory", .contract d.factory),
    ("token_contracts",
      .contracts (Dict.ofList (Token.all.map fun t => (t.name, d.tokenContracts t)))),
    ("pair_contracts", .contracts d.pairContracts)]

/-- `saved_data` -/
def Deployment.saved (d : Deployment A K C) : Data where
  signer := some (keys.keyHex d.signer)
  solanaAccount := some (hex (keys.secret d.solanaAccount))
  router := some (chain.address d.router)
  factory := some (chain.address d.factory)
  tokenContracts :=
    some (Dict.ofList (Token.all.map fun t => (t.name, chain.address (d.tokenContracts t))))
  pairContracts :=
    some (Dict.ofList (d.pairContracts.items.map fun x => (x.1, chain.address x.2)))
  users := none

/-- `data.get("users", {})` -/
def savedUsers (data : Dict String (Value A K C)) : Dict String String :=
  match data.get? "users" with
  | some (.keys users) => users
  | _ => Dict.empty

def loadUser (user : String × String) : Except PyError (String × A) := do
  let account ← keys.fromKey (.text user.2)
  return (user.1, account)

def loadUsers (data : Dict String (Value A K C)) : Except PyError (Dict String A) := do
  let users ← (savedUsers data).items.mapM (loadUser keys)
  return Dict.ofList users

/-- `environment.uniswap` and `environment.users` -/
structure Environment (A K C : Type) where
  uniswap : Dict String (Value A K C)
  users : Dict String A

/-- The end of the listener: the file is written, and the environment filled. -/
def saveContracts (d : Deployment A K C) (w : World) :
    Except PyError (Environment A K C × World) := do
  let users ← loadUsers keys d.data
  return (⟨d.data, users⟩, w.write (d.saved keys chain))

def deployUniswapContracts (w : World) : Except PyError (Environment A K C × World) := do
  let signer ← deploySigner keys chain w.load
  let held ← deployTokens keys chain w.load signer
  let factory ← deployFactory chain w.load signer
  let router ← deployRouter chain w.load signer factory held.2
  let pairs ← deployPairs chain w.load signer factory router held.2 w
  saveContracts keys chain ⟨signer, held.1, router, factory, held.2, pairs.1⟩ pairs.2

end Deploy

-- ---------------------------------------------------------------------------
-- save_users and SwapUser.on_start
-- ---------------------------------------------------------------------------

variable (keys : Keys A K)

def usersData (users : Dict String A) : Dict String String :=
  Dict.ofList (users.items.map fun x => (x.1, keys.keyHex x.2))

def saveUsers (users : Dict String A) (w : World) : Except PyError World :=
  match w.files w.cwd with
  | none => .error .fileNotFoundError
  | some .invalid => .error .jsonDecodeError
  | some (.json data) => .ok (w.write { data with users := some (usersData keys users) })

/-- The user's account, and `environment.users` after it; `created` is what
`create_account` gives. -/
def onStart (created : A) (userCount : Nat) (users : Dict String A) : A × Dict String A :=
  match users.get? (toString userCount) with
  | none => (created, users.set (toString userCount) created)
  | some user =>
    match keys.fromKey (.account user) with
    | .ok account => (account, users)
    | .error _ => (created, users.set (toString userCount) created)

end NeonTests.Swaps
