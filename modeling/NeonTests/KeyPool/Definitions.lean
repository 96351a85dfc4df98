import NeonTests.Lib.Python
import NeonTests.Lib.Runs

/-!
# The OpenZeppelin runner — workers that share key sets

`run_openzeppelin_tests` of `clickfile.py`: the test files are handed to a pool of
`jobs` threads, and every call of `run_oz_file` takes a set of private keys off
`keys_env` and puts it back when hardhat is done.

The threads interleave at the operations on what they share: a file handed out,
`keys_env.pop(0)`, the end of a hardhat run, `keys_env.append(keys)`, the end of a
call. A call that raises is recorded by the pool, and its thread goes on with the
next file. Printing is not modelled: `sys.stdout` takes every text.
-/

namespace NeonTests.KeyPool

open Endian Python

-- ---------------------------------------------------------------------------
-- Test files
-- ---------------------------------------------------------------------------

def priorityNames : List String :=
  ["test/token/ERC721/ERC721.test.js", "test/token/ERC721/ERC721Enumerable.test.js",
    "test/token/ERC721/extensions/ERC721Wrapper.test.js"]

def hasPriority (test : String) : Bool :=
  priorityNames.any fun priorityName => priorityName.toList.isSuffixOf test.toList

def prioritisedTests (tests : List String) : List String :=
  let priorityTests := tests.filter hasPriority
  let otherTests := tests.filter fun test => !hasPriority test
  priorityTests ++ otherTests

-- ---------------------------------------------------------------------------
-- Workers
-- ---------------------------------------------------------------------------

/-- A list of private keys from `prepare_accounts`. Two calls return two lists, whatever
their keys: `id` tells them apart. -/
structure KeySet where
  id : Nat
  keys : List String
  deriving DecidableEq, Repr

/-- What `subprocess.run` returns. -/
structure CompletedProcess where
  returncode : Int
  stdout : Bytes
  stderr : Bytes
  deriving DecidableEq, Repr

/-- The texts of the three log files. -/
structure Logs where
  stdout : String
  stderr : String
  timeInfo : String
  deriving DecidableEq, Repr

/-- Where a call of `run_oz_file` is. -/
inductive Phase
  /-- before `keys_env.pop(0)` -/
  | started
  /-- in `subprocess.run` -/
  | running (keys : KeySet) (env : Dict String String)
  /-- hardhat is done and its output decoded; before `keys_env.append(keys)` -/
  | finished (keys : KeySet) (logs : Logs)
  /-- after it: the log files are written -/
  | logging (logs : Logs)

structure Worker where
  fileName : String
  phase : Phase

/-- The key set a worker holds. -/
def Worker.keys? (w : Worker) : Option KeySet :=
  match w.phase with
  | .running keys _ | .finished keys _ => some keys
  | .started | .logging _ => none

structure Config where
  jobs : Nat
  /-- `os.environ` -/
  environ : Dict String String
  /-- the network's `network_ids.neon` -/
  networkId : String
  proxyUrl : String

def env (config : Config) (keys : KeySet) : Dict String String :=
  ((config.environ.set "PRIVATE_KEYS" (",".intercalate keys.keys)).set "NETWORK_ID"
    config.networkId).set "PROXY_URL" config.proxyUrl

/-- `keys_env.pop(0)` -/
def popFirst (keysEnv : List KeySet) : Except PyError (KeySet × List KeySet) :=
  match keysEnv with
  | [] => .error .indexError
  | keys :: rest => .ok (keys, rest)

/-- The two outputs of hardhat, decoded. -/
def outputs (out : CompletedProcess) : Except PyError (String × String) := do
  let stdout ← decode out.stdout
  let stderr ← decode out.stderr
  return (stdout, stderr)

-- ---------------------------------------------------------------------------
-- The pool
-- ---------------------------------------------------------------------------

structure State where
  /-- the files not handed out yet -/
  tests : List String
  /-- the calls under way -/
  workers : List Worker
  keysEnv : List KeySet
  /-- the files hardhat was started for -/
  ran : List String
  /-- the calls that returned or raised -/
  ended : List (String × Except PyError Unit)

inductive Event
  /-- an idle thread is given the next file -/
  | dispatch
  | pop (i : Nat)
  | exit (i : Nat) (out : CompletedProcess) (timeInfo : String)
  | append (i : Nat)
  /-- the log files were written, or not -/
  | write (i : Nat) (outcome : Except PyError Unit)

/-- The call of worker `i` ends. -/
def State.finish (s : State) (i : Nat) (fileName : String) (outcome : Except PyError Unit) :
    State :=
  { s with workers := s.workers.eraseIdx i, ended := s.ended ++ [(fileName, outcome)] }

def State.setPhase (s : State) (i : Nat) (fileName : String) (phase : Phase) : State :=
  { s with workers := s.workers.set i ⟨fileName, phase⟩ }

variable (config : Config)

/-- `none`: the event cannot happen. -/
def step (s : State) : Event → Option State
  | .dispatch =>
    match s.tests with
    | [] => none
    | fileName :: rest =>
      if s.workers.length < config.jobs then
        some { s with tests := rest, workers := s.workers ++ [⟨fileName, .started⟩] }
      else none
  | .pop i =>
    match s.workers[i]? with
    | some ⟨fileName, .started⟩ =>
      match popFirst s.keysEnv with
      | .error e => some (s.finish i fileName (.error e))
      | .ok (keys, rest) =>
        some { s.setPhase i fileName (.running keys (env config keys)) with
          keysEnv := rest
          ran := s.ran ++ [fileName] }
    | _ => none
  | .exit i out timeInfo =>
    match s.workers[i]? with
    | some ⟨fileName, .running keys _⟩ =>
      match outputs out with
      -- the exception leaves `run_oz_file`, and `keys` with it
      | .error e => some (s.finish i fileName (.error e))
      | .ok (stdout, stderr) =>
        some (s.setPhase i fileName (.finished keys ⟨stdout, stderr, timeInfo⟩))
    | _ => none
  | .append i =>
    match s.workers[i]? with
    | some ⟨fileName, .finished keys logs⟩ =>
      some { s.setPhase i fileName (.logging logs) with keysEnv := s.keysEnv ++ [keys] }
    | _ => none
  | .write i outcome =>
    match s.workers[i]? with
    | some ⟨fileName, .logging _⟩ => some (s.finish i fileName outcome)
    | _ => none

/-- `[prepare_accounts(..) for i in range(jobs)]` -/
def prepared (accounts : Nat → List String) : List KeySet :=
  (List.range config.jobs).map fun i => ⟨i, accounts i⟩

def initial (accounts : Nat → List String) (tests : List String) : State where
  tests := prioritisedTests tests
  workers := []
  keysEnv := prepared config accounts
  ran := []
  ended := []

end NeonTests.KeyPool
