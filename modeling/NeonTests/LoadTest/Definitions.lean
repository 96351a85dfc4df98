import NeonTests.Lib.Dict
import NeonTests.Lib.Ledger
import NeonTests.Lib.Runs

/-!
# The load test's ERC20 tasks

`ERC20TasksSet` of `loadtesting/proxy/tests/erc20.py`. Many users run in one process and share
the buffer of who holds which token; a user's task gives way to the others only while a
deployment or a transfer is in progress, so a task is the code before that call and the code
after it. The call itself has two ends: when it lands on the chain and when it returns.

Accounts and contracts are any types, with finitely many accounts. An account is one user's; one
that no event names only receives.
-/

namespace NeonTests.LoadTest

variable {A C : Type} [DecidableEq A]

/-! ## The shared buffer -/

/-- What the buffer holds for an account and a contract: the `ERC20` object, by the address of
its contract, and the amount. -/
structure Held (C : Type) where
  contract : C
  amount : Int
  deriving DecidableEq

/-- `environment.shared.erc20_contracts` -/
abbrev Buffer (A C : Type) := Dict A (Dict C (Held C))

namespace Buffer

def contractsOf (buffer : Buffer A C) (account : A) : Dict C (Held C) :=
  (buffer.get? account).getD Dict.empty

variable [DecidableEq C]

def entry (buffer : Buffer A C) (account : A) (contract : C) : Option (Held C) :=
  (buffer.contractsOf account).get? contract

/-- The recorded amount, zero where there is no entry. -/
def recorded (buffer : Buffer A C) (account : A) (contract : C) : Int :=
  ((buffer.entry account contract).map Held.amount).getD 0

/-- `buffer.setdefault(account, {}).update({contract: held})` -/
def put (buffer : Buffer A C) (account : A) (contract : C) (held : Held C) : Buffer A C :=
  buffer.set account ((buffer.contractsOf account).set contract held)

/-- `del buffer[account][contract]` -/
def del (buffer : Buffer A C) (account : A) (contract : C) : Buffer A C :=
  buffer.set account ((buffer.contractsOf account).erase contract)

end Buffer

/-! ## The tasks -/

section Tasks

variable [DecidableEq C]

/-- How the first half of `task_send_erc20` ends: with the task, or with a transfer. -/
inductive SendStart (A C : Type)
  | finished (buffer : Buffer A C)
  | submit (contract : C)

/-- `task_send_erc20` up to the transfer. `contract` is what `random.choice` gives, which is one
of the account's keys when there are any. -/
def taskSendErc20 (buffer : Buffer A C) (account : A) (contract : C) : Option (SendStart A C) :=
  if (buffer.contractsOf account).items = [] then some (.finished buffer)
  else
    match buffer.entry account contract with
    | none => none
    | some held =>
      if held.amount < 1 then some (.finished (buffer.del account contract))
      else some (.submit held.contract)

/-- `task_send_erc20` from the receipt on; `none` is the `KeyError` of
`_buffer[account][contract]`. The recipient's entry is read after the sender's was lowered. -/
def recordTransfer (buffer : Buffer A C) (account recipient : A) (contract : C) :
    Option (Buffer A C) :=
  match buffer.entry account contract with
  | none => none
  | some held =>
    let debited := buffer.put account contract { held with amount := held.amount - 1 }
    let recipientContract := (debited.entry recipient contract).getD ⟨contract, 0⟩
    some (debited.put recipient contract
      { recipientContract with amount := recipientContract.amount + 1 })

end Tasks

/-- Where a user's task gives way to the others. -/
inductive Task (A C : Type)
  | idle
  | deploying (amount : Nat)
  | deployed (amount : Nat) (contract : C)
  | transferring (contract : C) (recipient : A)
  | transferred (contract : C) (recipient : A)

/-! ## Users and chain together -/

/-- The buffer, the chain and every user's task. `deployed` is the amount that a contract was
deployed with, none while there is no contract at the address. -/
structure System (A C : Type) where
  buffer : Buffer A C
  balances : C → A → Nat
  deployed : C → Option Nat
  task : A → Task A C

def start : System A C where
  buffer := Dict.empty
  balances := fun _ _ => 0
  deployed := fun _ => none
  task := fun _ => .idle

def System.setTask (s : System A C) (account : A) (task : Task A C) : System A C :=
  { s with task := Function.update s.task account task }

@[simp] theorem setTask_buffer (s : System A C) (account : A) (t : Task A C) :
    (s.setTask account t).buffer = s.buffer := rfl

@[simp] theorem setTask_balances (s : System A C) (account : A) (t : Task A C) :
    (s.setTask account t).balances = s.balances := rfl

@[simp] theorem setTask_deployed (s : System A C) (account : A) (t : Task A C) :
    (s.setTask account t).deployed = s.deployed := rfl

@[simp] theorem setTask_task (s : System A C) (account : A) (t : Task A C) (a : A) :
    (s.setTask account t).task a = if a = account then t else s.task a :=
  Function.update_apply _ _ _ _

inductive Event (A C : Type)
  /-- `task_deploy_contract` with the amount `random.randint` gives. -/
  | taskDeployContract (account : A) (amount : Nat)
  | deployLands (account : A) (contract : C)
  | deployFails (account : A)
  | deployReturns (account : A)
  /-- `task_send_erc20` with what `random.choice` and `get_account` give. -/
  | taskSendErc20 (account : A) (contract : C) (recipient : A)
  | transferLands (account : A)
  | transferFails (account : A)
  | transferReturns (account : A)

variable [DecidableEq C]

def step (s : System A C) : Event A C → Option (System A C)
  | .taskDeployContract account amount =>
    match s.task account with
    | .idle =>
      if 10 ^ 15 ≤ amount ∧ amount ≤ 10 ^ 15 + 10 ^ 3 then
        some (s.setTask account (.deploying amount))
      else none
    | _ => none
  | .deployLands account contract =>
    match s.task account with
    | .deploying amount =>
      if s.deployed contract = none then
        some { s.setTask account (.deployed amount contract) with
          balances := Function.update s.balances contract
            (Function.update (fun _ => 0) account amount)
          deployed := Function.update s.deployed contract (some amount) }
      else none
    | _ => none
  | .deployFails account =>
    match s.task account with
    | .deploying _ => some (s.setTask account .idle)
    | _ => none
  | .deployReturns account =>
    match s.task account with
    | .deployed amount contract =>
      some { s.setTask account .idle with
        buffer := s.buffer.put account contract ⟨contract, amount⟩ }
    | _ => none
  | .taskSendErc20 account contract recipient =>
    match s.task account with
    | .idle =>
      match taskSendErc20 s.buffer account contract with
      | none => none
      | some (.finished buffer) => some { s with buffer := buffer }
      | some (.submit erc20) => some (s.setTask account (.transferring erc20 recipient))
    | _ => none
  | .transferLands account =>
    match s.task account with
    | .transferring contract recipient =>
      -- `require(fromBalance >= amount)`
      if 1 ≤ s.balances contract account then
        some { s.setTask account (.transferred contract recipient) with
          balances := Function.update s.balances contract
            (Ledger.transfer (s.balances contract) account recipient 1) }
      else none
    | _ => none
  | .transferFails account =>
    match s.task account with
    | .transferring _ _ => some (s.setTask account .idle)
    | _ => none
  | .transferReturns account =>
    match s.task account with
    | .transferred contract recipient =>
      match recordTransfer s.buffer account recipient contract with
      | none => some (s.setTask account .idle)
      | some buffer => some { s.setTask account .idle with buffer := buffer }
    | _ => none

end NeonTests.LoadTest
