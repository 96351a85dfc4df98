import NeonTests.Lib.EvmMemory
import Mathlib.Data.Stream.Defs
import Mathlib.Data.BitVec

/-!
# Bytecode

A stack machine that runs bytes: the instructions of the EVM that forwarding code is
made of, their encoding, and the rules by which a program that is given as a list of
instructions is executed where it stands inside a byte string.

* `decode_encode` — the bytes of an instruction are read as it;
* `isDest_assemble` — a `JUMPDEST` behind a list of instructions may be jumped to;
* `run_block` — instructions that do not jump run one after the other, wherever they stand;
* `run_mono` — more gas changes nothing but an `outOfGas`;
* `length_data_run_lt` — what a call answers is shorter than `2 ^ 64` bytes, so that the
  answer of one call can be what another one reads.

What a call costs is not counted instruction by instruction. It can go on for some number
of steps and touch memory up to some address; the values that `GAS` yields on the way are
the machine's `gasReadings`.
-/

namespace Evm

open Endian Fallible Solidity EvmMemory

abbrev Address := BitVec 160

-- ---------------------------------------------------------------------------
-- Instructions
-- ---------------------------------------------------------------------------

/-- The bytes behind a `PUSH`. -/
@[ext]
structure Immediate where
  bytes : Bytes
  length_pos : 0 < bytes.length
  length_le : bytes.length ≤ 32
  deriving DecidableEq

inductive Op
  | stop
  | add
  | sub
  | calldatasize
  | calldatacopy
  | codesize
  | codecopy
  | returndatasize
  | returndatacopy
  | jumpi
  | gas
  | jumpdest
  | push (imm : Immediate)
  | dup (i : Fin 16)
  | swap (i : Fin 16)
  | ret
  | delegatecall
  | revert
  deriving DecidableEq

def Op.opcode : Op → Nat
  | stop => 0x00
  | add => 0x01
  | sub => 0x03
  | calldatasize => 0x36
  | calldatacopy => 0x37
  | codesize => 0x38
  | codecopy => 0x39
  | returndatasize => 0x3d
  | returndatacopy => 0x3e
  | jumpi => 0x57
  | gas => 0x5a
  | jumpdest => 0x5b
  | push imm => 0x5f + imm.bytes.length
  | dup i => 0x80 + i.val
  | swap i => 0x90 + i.val
  | ret => 0xf3
  | delegatecall => 0xf4
  | revert => 0xfd

def Op.immediate : Op → Bytes
  | push imm => imm.bytes
  | _ => []

def Op.encode (op : Op) : Bytes := UInt8.ofNat op.opcode :: op.immediate

def assemble (ops : List Op) : Bytes := ops.flatMap Op.encode

/-- The instructions without a number in their opcode. -/
def plainOp : Nat → Option Op
  | 0x00 => some .stop
  | 0x01 => some .add
  | 0x03 => some .sub
  | 0x36 => some .calldatasize
  | 0x37 => some .calldatacopy
  | 0x38 => some .codesize
  | 0x39 => some .codecopy
  | 0x3d => some .returndatasize
  | 0x3e => some .returndatacopy
  | 0x57 => some .jumpi
  | 0x5a => some .gas
  | 0x5b => some .jumpdest
  | 0xf3 => some .ret
  | 0xf4 => some .delegatecall
  | 0xfd => some .revert
  | _ => none

def ofOpcode (n : Nat) (rest : Bytes) : Option Op :=
  if h : 0x60 ≤ n ∧ n < 0x80 then
    -- an immediate that the code ends in goes on with zeros
    some (.push ⟨rest.takeD (n - 0x5f) 0, by simp; omega, by simp; omega⟩)
  else if h : 0x80 ≤ n ∧ n < 0x90 then some (.dup ⟨n - 0x80, by omega⟩)
  else if h : 0x90 ≤ n ∧ n < 0xa0 then some (.swap ⟨n - 0x90, by omega⟩)
  else plainOp n

/-- The instruction at the front of a byte string; behind its end a program stops. -/
def decode : Bytes → Option Op
  | [] => some .stop
  | b :: rest => ofOpcode b.toNat rest

theorem Op.opcode_lt (op : Op) : op.opcode < 256 := by
  cases op with
  | push imm =>
    have := imm.length_le
    simp only [opcode]
    omega
  | dup i => simp only [opcode]; omega
  | swap i => simp only [opcode]; omega
  | _ => simp [opcode]

theorem ofOpcode_push (imm : Immediate) (rest : Bytes) :
    ofOpcode (0x5f + imm.bytes.length) (imm.bytes ++ rest) = some (.push imm) := by
  have hpos := imm.length_pos
  have hle := imm.length_le
  unfold ofOpcode
  rw [dif_pos (by omega), Option.some.injEq, Op.push.injEq]
  apply Immediate.ext
  show (imm.bytes ++ rest).takeD (0x5f + imm.bytes.length - 0x5f) 0 = imm.bytes
  rw [Nat.add_sub_cancel_left, List.takeD_eq_take 0 (by simp), List.take_left]

theorem ofOpcode_dup (i : Fin 16) (rest : Bytes) :
    ofOpcode (0x80 + i.val) rest = some (.dup i) := by
  unfold ofOpcode
  rw [dif_neg (by omega), dif_pos (by omega)]
  simp

theorem ofOpcode_swap (i : Fin 16) (rest : Bytes) :
    ofOpcode (0x90 + i.val) rest = some (.swap i) := by
  unfold ofOpcode
  rw [dif_neg (by omega), dif_neg (by omega), dif_pos (by omega)]
  simp

@[simp] theorem Op.toNat_opcode (op : Op) : (UInt8.ofNat op.opcode).toNat = op.opcode := by
  rw [UInt8.toNat_ofNat', Nat.mod_eq_of_lt op.opcode_lt]

/-- An instruction's bytes are read as it. -/
theorem decode_encode (op : Op) (rest : Bytes) : decode (op.encode ++ rest) = some op := by
  rw [Op.encode, List.cons_append, decode, op.toNat_opcode]
  cases op with
  | push imm => exact ofOpcode_push imm rest
  | dup i => exact ofOpcode_dup i _
  | swap i => exact ofOpcode_swap i _
  | _ => rfl

@[simp] theorem assemble_nil : assemble [] = [] := rfl

@[simp] theorem assemble_cons (op : Op) (ops : List Op) :
    assemble (op :: ops) = op.encode ++ assemble ops := rfl

theorem assemble_append (ops ops' : List Op) :
    assemble (ops ++ ops') = assemble ops ++ assemble ops' := List.flatMap_append

/-- The number of bytes of an immediate behind an opcode. -/
def pushLength (b : UInt8) : Nat :=
  if 0x60 ≤ b.toNat ∧ b.toNat < 0x80 then b.toNat - 0x5f else 0

/-- Whether an instruction `JUMPDEST` starts `dest` bytes on; `skip` more bytes belong to
an immediate. -/
def isDest : Bytes → Nat → Nat → Bool
  | [], _, _ => false
  | _ :: _, _ + 1, 0 => false
  | _ :: rest, skip + 1, dest + 1 => isDest rest skip dest
  | b :: _, 0, 0 => b = 0x5b
  | b :: rest, 0, dest + 1 => isDest rest (pushLength b) dest

/-- An immediate is passed over, whatever its bytes are. -/
theorem isDest_skip (bs rest : Bytes) (dest : Nat) :
    isDest (bs ++ rest) bs.length (bs.length + dest) = isDest rest 0 dest := by
  induction bs with
  | nil => rw [List.nil_append, List.length_nil, Nat.zero_add]
  | cons b bs ih =>
    rw [List.cons_append, List.length_cons, Nat.add_right_comm, isDest]
    exact ih

theorem Op.pushLength_opcode (op : Op) :
    pushLength (UInt8.ofNat op.opcode) = op.immediate.length := by
  rw [pushLength, op.toNat_opcode]
  cases op with
  | push imm =>
    have hpos := imm.length_pos
    have hle := imm.length_le
    exact (if_pos (by simp only [opcode]; omega)).trans (Nat.add_sub_cancel_left ..)
  | dup i => exact if_neg (by simp only [opcode]; omega)
  | swap i => exact if_neg (by simp only [opcode]; omega)
  | _ => rfl

theorem isDest_assemble_append (ops : List Op) (rest : Bytes) (dest : Nat) :
    isDest (assemble ops ++ rest) 0 ((assemble ops).length + dest) = isDest rest 0 dest := by
  induction ops with
  | nil => rw [assemble_nil, List.nil_append, List.length_nil, Nat.zero_add]
  | cons op ops ih =>
    have hlen : (assemble (op :: ops)).length + dest =
        op.immediate.length + ((assemble ops).length + dest) + 1 := by
      rw [assemble_cons, List.length_append, Op.encode, List.length_cons]
      omega
    rw [hlen, assemble_cons, Op.encode, List.cons_append, List.cons_append, isDest,
      op.pushLength_opcode, List.append_assoc, isDest_skip, ih]

/-- A `JUMPDEST` behind a list of instructions may be jumped to. -/
theorem isDest_assemble (ops : List Op) (rest : Bytes) :
    isDest (assemble ops ++ Op.jumpdest.encode ++ rest) 0 (assemble ops).length = true := by
  rw [List.append_assoc, ← Nat.add_zero (assemble ops).length, isDest_assemble_append]
  rfl

-- ---------------------------------------------------------------------------
-- The machine
-- ---------------------------------------------------------------------------

inductive Exception
  | outOfGas
  | stackUnderflow
  | stackOverflow
  | invalidJump
  | outOfBounds
  /-- An opcode that is not among the instructions above. -/
  | unknownOpcode
  deriving DecidableEq, Repr

/-- How a call ends. Only a call that returns keeps what it did to the world. -/
inductive Outcome (ω : Type)
  | returned (data : Bytes) (world : ω)
  | reverted (data : Bytes)
  | failed (e : Exception)
  deriving DecidableEq

variable {ω : Type}

/-- What the caller can read. -/
def Outcome.data : Outcome ω → Bytes
  | returned data _ => data
  | reverted data => data
  | failed _ => []

/-- What a call instruction leaves on the stack. -/
def Outcome.flag : Outcome ω → Uint256
  | returned .. => 1
  | _ => 0

def Outcome.worldAfter (w : ω) : Outcome ω → ω
  | returned _ w' => w'
  | _ => w

structure Machine (ω : Type) where
  stack : List Uint256
  memory : Memory
  returnData : Bytes
  gasReadings : Stream' Uint256
  world : ω

/-- What a call is made with: its code and calldata, and what comes of the calls it makes.
Every byte of them was paid for. -/
structure Env (ω : Type) where
  code : Bytes
  calldata : Bytes
  delegatecall : Uint256 → Address → Bytes → ω → Outcome ω
  code_lt : code.length < 2 ^ 64
  calldata_lt : calldata.length < 2 ^ 64
  data_lt : ∀ gas target input w, (delegatecall gas target input w).data.length < 2 ^ 64

def Machine.start (gasReadings : Stream' Uint256) (world : ω) : Machine ω :=
  ⟨[], fun _ => 0, [], gasReadings, world⟩

def size (bs : Bytes) : Uint256 := BitVec.ofNat 256 bs.length

/-- The memory has to reach as far as the access; an empty one needs none. -/
def reach (limit : Nat) (p n : Uint256) : Except (Outcome ω) Unit :=
  guard (n.toNat = 0 ∨ p.toNat + n.toNat ≤ limit) (.failed .outOfGas)

/-- `n` bytes from `src` on; behind its end a byte string reads as zero. -/
def window (bs : Bytes) (src n : Uint256) : Bytes := (bs.drop src.toNat).takeD n.toNat 0

/-- What an instruction does to everything but the program counter. -/
def exec (env : Env ω) (limit : Nat) (op : Op) (m : Machine ω) :
    Except (Outcome ω) (Machine ω) :=
  match op, m.stack with
  | .stop, _ => .error (.returned [] m.world)
  | .add, a :: b :: rest => .ok { m with stack := (a + b) :: rest }
  | .sub, a :: b :: rest => .ok { m with stack := (a - b) :: rest }
  | .calldatasize, rest => .ok { m with stack := size env.calldata :: rest }
  | .calldatacopy, dst :: src :: n :: rest => do
    reach limit dst n
    return { m with
      stack := rest
      memory := write m.memory dst.toNat (window env.calldata src n) }
  | .codesize, rest => .ok { m with stack := size env.code :: rest }
  | .codecopy, dst :: src :: n :: rest => do
    reach limit dst n
    return { m with
      stack := rest
      memory := write m.memory dst.toNat (window env.code src n) }
  | .returndatasize, rest => .ok { m with stack := size m.returnData :: rest }
  | .returndatacopy, dst :: src :: n :: rest => do
    guard (src.toNat + n.toNat ≤ m.returnData.length) (.failed .outOfBounds)
    reach limit dst n
    return { m with
      stack := rest
      memory := write m.memory dst.toNat (window m.returnData src n) }
  | .jumpi, _ :: _ :: rest => .ok { m with stack := rest }
  | .gas, rest =>
    .ok { m with stack := m.gasReadings.head :: rest, gasReadings := m.gasReadings.tail }
  | .jumpdest, _ => .ok m
  | .push imm, rest => .ok { m with stack := wordOf imm.bytes :: rest }
  | .dup i, stack =>
    match stack[i.val]? with
    | some w => .ok { m with stack := w :: stack }
    | none => .error (.failed .stackUnderflow)
  | .swap i, a :: rest =>
    match rest[i.val]? with
    | some b => .ok { m with stack := b :: rest.set i.val a }
    | none => .error (.failed .stackUnderflow)
  | .ret, p :: n :: _ => do
    reach limit p n
    .error (.returned (read m.memory p.toNat n.toNat) m.world)
  | .revert, p :: n :: _ => do
    reach limit p n
    .error (.reverted (read m.memory p.toNat n.toNat))
  | .delegatecall, gas :: target :: p :: n :: q :: k :: rest => do
    reach limit p n
    reach limit q k
    let outcome := env.delegatecall gas (target.setWidth 160)
      (read m.memory p.toNat n.toNat) m.world
    return { m with
      stack := outcome.flag :: rest
      memory := write m.memory q.toNat (outcome.data.take k.toNat)
      returnData := outcome.data
      world := outcome.worldAfter m.world }
  | _, _ => .error (.failed .stackUnderflow)

/-- The same within the 1024 words that the stack has room for. -/
def execute (env : Env ω) (limit : Nat) (op : Op) (m : Machine ω) :
    Except (Outcome ω) (Machine ω) := do
  let m' ← exec env limit op m
  guard (m'.stack.length ≤ 1024) (.failed .stackOverflow)
  return m'

/-- Where the program goes on. -/
def next (env : Env ω) (pc : Nat) (op : Op) (m : Machine ω) : Except (Outcome ω) Nat :=
  match op, m.stack with
  | .jumpi, dest :: cond :: _ =>
    if cond = 0 then .ok (pc + 1)
    else do
      guard (isDest env.code 0 dest.toNat) (.failed .invalidJump)
      return dest.toNat
  | _, _ => .ok (pc + op.encode.length)

def fetch (env : Env ω) (pc : Nat) : Except (Outcome ω) Op :=
  match decode (env.code.drop pc) with
  | some op => .ok op
  | none => .error (.failed .unknownOpcode)

def step (env : Env ω) (limit : Nat) (pc : Nat) (m : Machine ω) :
    Except (Outcome ω) (Nat × Machine ω) := do
  let op ← fetch env pc
  let pc' ← next env pc op m
  let m' ← execute env limit op m
  return (pc', m')

def run (env : Env ω) (limit : Nat) : Nat → Nat → Machine ω → Outcome ω
  | 0, _, _ => .failed .outOfGas
  | steps + 1, pc, m =>
    match step env limit pc m with
    | .error outcome => outcome
    | .ok (pc', m') => run env limit steps pc' m'

/-- A call starts at the first instruction, on an empty stack and zeroed memory. -/
def call (env : Env ω) (gas : Gas) (gasReadings : Stream' Uint256) (world : ω) : Outcome ω :=
  run env gas.memory gas.rounds 0 (.start gasReadings world)

variable {env : Env ω} {limit limit' pc pc' steps n : Nat} {op : Op} {ops ops' : List Op}
  {m m' m'' : Machine ω} {rest : Bytes} {outcome : Outcome ω}

-- ---------------------------------------------------------------------------
-- Instructions one after the other
-- ---------------------------------------------------------------------------

def executeAll (env : Env ω) (limit : Nat) :
    List Op → Machine ω → Except (Outcome ω) (Machine ω)
  | [], m => .ok m
  | op :: ops, m => do
    let m' ← execute env limit op m
    executeAll env limit ops m'

theorem executeAll_cons (h : execute env limit op m = .ok m') :
    executeAll env limit (op :: ops) m = executeAll env limit ops m' := by
  rw [executeAll, h, ok_bind]

theorem executeAll_append (h : executeAll env limit ops m = .ok m')
    (h' : executeAll env limit ops' m' = .ok m'') :
    executeAll env limit (ops ++ ops') m = .ok m'' := by
  induction ops generalizing m with
  | nil =>
    cases h
    exact h'
  | cons op ops ih =>
    obtain ⟨m₁, hop, hops⟩ := bind_eq_ok.mp h
    rw [List.cons_append, executeAll_cons hop]
    exact ih hops

theorem execute_of_exec (h : exec env limit op m = .ok m') (hstack : m'.stack.length ≤ 1024) :
    execute env limit op m = .ok m' := by
  rw [execute, h, ok_bind, guard_of hstack, ok_bind]
  rfl

theorem fetch_eq (hcode : env.code.drop pc = op.encode ++ rest) : fetch env pc = .ok op := by
  rw [fetch, hcode, decode_encode]

theorem next_of_ne (h : op ≠ .jumpi) : next env pc op m = .ok (pc + op.encode.length) := by
  unfold next
  split
  · exact absurd rfl h
  · rfl

/-- One instruction, wherever it goes on. -/
theorem run_step (hcode : env.code.drop pc = op.encode ++ rest)
    (hnext : next env pc op m = .ok pc') (hexec : execute env limit op m = .ok m') :
    run env limit (steps + 1) pc m = run env limit steps pc' m' := by
  have hstep : step env limit pc m = .ok (pc', m') := by
    rw [step, fetch_eq hcode, ok_bind, hnext, ok_bind, hexec, ok_bind]
    rfl
  rw [run, hstep]

/-- The instruction that ends the call. -/
theorem run_halt (hcode : env.code.drop pc = op.encode ++ rest)
    (hnext : next env pc op m = .ok pc') (hexec : exec env limit op m = .error outcome) :
    run env limit (steps + 1) pc m = outcome := by
  have hstep : step env limit pc m = .error outcome := by
    rw [step, fetch_eq hcode, ok_bind, hnext, ok_bind, execute, hexec]
    rfl
  rw [run, hstep]

/-- Instructions that do not jump run one after the other, wherever they stand. -/
theorem run_block (hstraight : .jumpi ∉ ops)
    (hcode : env.code.drop pc = assemble ops ++ rest)
    (hexec : executeAll env limit ops m = .ok m') :
    run env limit (ops.length + steps) pc m =
      run env limit steps (pc + (assemble ops).length) m' := by
  induction ops generalizing pc m with
  | nil =>
    cases hexec
    rw [List.length_nil, Nat.zero_add, assemble_nil, List.length_nil, Nat.add_zero]
  | cons op ops ih =>
    obtain ⟨hop, hops⟩ := List.ne_and_not_mem_of_not_mem_cons hstraight
    obtain ⟨m₁, hfirst, hrest⟩ := bind_eq_ok.mp hexec
    rw [assemble_cons, List.append_assoc] at hcode
    have hbehind : env.code.drop (pc + op.encode.length) = assemble ops ++ rest := by
      rw [← List.drop_drop, hcode, List.drop_left]
    rw [List.length_cons, Nat.add_right_comm, run_step hcode (next_of_ne hop.symm) hfirst,
      ih hops hbehind hrest, assemble_cons, List.length_append, Nat.add_assoc]

-- ---------------------------------------------------------------------------
-- Instructions that touch memory
-- ---------------------------------------------------------------------------

variable {bs front : Bytes} {dst src k : Uint256} {words : List Uint256} {memory : Memory}
  {returnData : Bytes} {gasReadings : Stream' Uint256} {world : ω}

theorem toNat_size (h : bs.length < 2 ^ 64) : (size bs).toNat = bs.length := by
  rw [size, BitVec.toNat_ofNat, Nat.mod_eq_of_lt (by omega)]

/-- What stands behind the front of a byte string. -/
theorem window_append (hsrc : src.toNat = front.length) (hk : k.toNat = bs.length) :
    window (front ++ bs) src k = bs := by
  rw [window, hsrc, hk, List.drop_left, List.takeD_eq_take 0 le_rfl, List.take_length]

theorem window_zero (hk : k.toNat = bs.length) : window bs 0 k = bs := by
  show window ([] ++ bs) 0 k = bs
  exact window_append rfl hk

theorem exec_ret {p : Uint256} (hreach : k.toNat = 0 ∨ p.toNat + k.toNat ≤ limit) :
    exec env limit .ret ⟨p :: k :: words, memory, returnData, gasReadings, world⟩ =
      .error (.returned (read memory p.toNat k.toNat) world) := by
  simp only [exec, reach, guard_of hreach, ok_bind]

theorem exec_revert {p : Uint256} (hreach : k.toNat = 0 ∨ p.toNat + k.toNat ≤ limit) :
    exec env limit .revert ⟨p :: k :: words, memory, returnData, gasReadings, world⟩ =
      .error (.reverted (read memory p.toNat k.toNat)) := by
  simp only [exec, reach, guard_of hreach, ok_bind]

theorem exec_calldatacopy (hreach : k.toNat = 0 ∨ dst.toNat + k.toNat ≤ limit) :
    exec env limit .calldatacopy ⟨dst :: src :: k :: words, memory, returnData, gasReadings, world⟩ =
      .ok ⟨words, write memory dst.toNat (window env.calldata src k), returnData, gasReadings,
        world⟩ := by
  simp only [exec, reach, guard_of hreach, ok_bind]
  rfl

theorem exec_codecopy (hreach : k.toNat = 0 ∨ dst.toNat + k.toNat ≤ limit) :
    exec env limit .codecopy ⟨dst :: src :: k :: words, memory, returnData, gasReadings, world⟩ =
      .ok ⟨words, write memory dst.toNat (window env.code src k), returnData, gasReadings,
        world⟩ := by
  simp only [exec, reach, guard_of hreach, ok_bind]
  rfl

theorem exec_returndatacopy (hbounds : src.toNat + k.toNat ≤ returnData.length)
    (hreach : k.toNat = 0 ∨ dst.toNat + k.toNat ≤ limit) :
    exec env limit .returndatacopy
        ⟨dst :: src :: k :: words, memory, returnData, gasReadings, world⟩ =
      .ok ⟨words, write memory dst.toNat (window returnData src k), returnData, gasReadings,
        world⟩ := by
  simp only [exec, reach, guard_of hbounds, guard_of hreach, ok_bind]
  rfl

/-- A call whose answer is not stored by the instruction itself. -/
theorem exec_delegatecall {gas target p q : Uint256}
    (hreach : k.toNat = 0 ∨ p.toNat + k.toNat ≤ limit)
    (houtcome : env.delegatecall gas (target.setWidth 160) (read memory p.toNat k.toNat) world =
      outcome) :
    exec env limit .delegatecall
        ⟨gas :: target :: p :: k :: q :: 0 :: words, memory, returnData, gasReadings, world⟩ =
      .ok ⟨outcome.flag :: words, memory, outcome.data, gasReadings,
        outcome.worldAfter world⟩ := by
  have hnone : (0 : Uint256).toNat = 0 ∨ q.toNat + (0 : Uint256).toNat ≤ limit := Or.inl rfl
  simp only [exec, reach, guard_of hreach, guard_of hnone, ok_bind, houtcome]
  rfl

-- ---------------------------------------------------------------------------
-- More gas
-- ---------------------------------------------------------------------------

variable {α β : Type}

/-- `x` does what `y` does unless it runs out of gas. -/
def Within (x y : Except (Outcome ω) α) : Prop := x = .error (.failed .outOfGas) ∨ x = y

theorem Within.rfl {x : Except (Outcome ω) α} : Within x x := Or.inr (Eq.refl x)

theorem Within.bind {x y : Except (Outcome ω) α} {f g : α → Except (Outcome ω) β}
    (hxy : Within x y) (hfg : ∀ a, Within (f a) (g a)) : Within (x >>= f) (y >>= g) := by
  obtain rfl | rfl := hxy
  · exact Or.inl (error_bind ..)
  · cases x with
    | error e => exact Or.inr (Eq.refl _)
    | ok a => exact hfg a

theorem reach_within (h : limit ≤ limit') (p n : Uint256) :
    Within (@reach ω limit p n) (reach limit' p n) := by
  unfold reach
  by_cases hreach : n.toNat = 0 ∨ p.toNat + n.toNat ≤ limit
  · rw [guard_of hreach, guard_of (hreach.imp_right fun hle => hle.trans h)]
    exact Within.rfl
  · exact Or.inl (if_neg hreach)

theorem exec_within (h : limit ≤ limit') (op : Op) (m : Machine ω) :
    Within (exec env limit op m) (exec env limit' op m) := by
  unfold exec
  split
  case h_5 | h_7 => exact (reach_within h _ _).bind fun _ => .rfl
  case h_9 => exact Within.rfl.bind fun _ => (reach_within h _ _).bind fun _ => .rfl
  case h_16 | h_17 => exact (reach_within h _ _).bind fun _ => .rfl
  case h_18 =>
    exact (reach_within h _ _).bind fun _ => (reach_within h _ _).bind fun _ => .rfl
  all_goals exact Within.rfl

theorem step_within (h : limit ≤ limit') (pc : Nat) (m : Machine ω) :
    Within (step env limit pc m) (step env limit' pc m) := by
  refine Within.rfl.bind fun op => Within.rfl.bind fun pc' => Within.bind ?_ fun _ => .rfl
  exact (exec_within h op m).bind fun _ => .rfl

/-- More gas changes nothing but an `outOfGas`. -/
theorem run_mono (hlimit : limit ≤ limit') (hsteps : steps ≤ n) (pc : Nat) (m : Machine ω) :
    run env limit steps pc m = .failed .outOfGas ∨
      run env limit steps pc m = run env limit' n pc m := by
  induction steps generalizing n pc m with
  | zero => exact Or.inl rfl
  | succ steps ih =>
    obtain ⟨n, rfl⟩ := Nat.exists_eq_add_of_lt hsteps
    obtain hstep | hstep : Within (step env limit pc m) (step env limit' pc m) :=
      step_within hlimit pc m
    · rw [run, hstep]
      exact Or.inl rfl
    · rw [run, run, hstep]
      cases step env limit' pc m with
      | error outcome => exact Or.inr rfl
      | ok next => exact ih (Nat.le_add_right steps n) next.1 next.2

-- ---------------------------------------------------------------------------
-- What a call answers
-- ---------------------------------------------------------------------------

/-- Whatever ends the call here answers with at most `limit` bytes. -/
def Bounded (limit : Nat) (x : Except (Outcome ω) α) : Prop :=
  ∀ outcome, x = .error outcome → outcome.data.length ≤ limit

theorem Bounded.bind {x : Except (Outcome ω) α} {f : α → Except (Outcome ω) β}
    (hx : Bounded limit x) (hf : ∀ a, x = .ok a → Bounded limit (f a)) :
    Bounded limit (x >>= f) := by
  cases x with
  | error e => exact fun outcome h => hx outcome (by cases h; rfl)
  | ok a => exact hf a rfl

theorem Bounded.ok (a : α) : Bounded limit (.ok a : Except (Outcome ω) α) := nofun

theorem Bounded.failed (e : Exception) :
    Bounded limit (.error (.failed e) : Except (Outcome ω) α) := by
  rintro _ ⟨⟩
  exact Nat.zero_le limit

theorem Bounded.guard {c : Prop} [Decidable c] (e : Exception) :
    Bounded limit (Fallible.guard c (.failed e : Outcome ω)) := by
  unfold Fallible.guard
  split
  · exact .ok _
  · exact .failed e

/-- The part of memory that an instruction ends the call with. -/
theorem Bounded.answer {p k : Uint256} {end' : Outcome ω} (hlen : end'.data.length = k.toNat) :
    Bounded limit (reach limit p k >>= fun _ => (.error end' : Except (Outcome ω) α)) := by
  refine (Bounded.guard _).bind fun _ hreach => ?_
  rintro _ ⟨⟩
  have := guard_eq_ok.mp hreach
  omega

theorem exec_bounded (op : Op) (m : Machine ω) : Bounded limit (exec env limit op m) := by
  unfold exec
  split
  case h_1 =>
    rintro _ ⟨⟩
    exact Nat.zero_le limit
  case h_5 | h_7 => exact (Bounded.guard _).bind fun _ _ => .ok _
  case h_9 => exact (Bounded.guard _).bind fun _ _ => (Bounded.guard _).bind fun _ _ => .ok _
  case h_14 | h_15 =>
    split
    · exact .ok _
    · exact .failed _
  case h_16 | h_17 => exact .answer (length_read ..)
  case h_18 => exact (Bounded.guard _).bind fun _ _ => (Bounded.guard _).bind fun _ _ => .ok _
  case h_19 => exact .failed _
  all_goals exact .ok _

theorem step_bounded (pc : Nat) (m : Machine ω) : Bounded limit (step env limit pc m) := by
  refine Bounded.bind ?_ fun op _ => Bounded.bind ?_ fun _ _ => Bounded.bind ?_ fun _ _ => .ok _
  · unfold fetch
    split
    · exact .ok _
    · exact .failed _
  · unfold next
    split
    · split
      · exact .ok _
      · exact (Bounded.guard _).bind fun _ _ => .ok _
    · exact .ok _
  · exact (exec_bounded op m).bind fun _ _ => (Bounded.guard _).bind fun _ _ => .ok _

theorem length_data_run_le (steps pc : Nat) (m : Machine ω) :
    (run env limit steps pc m).data.length ≤ limit := by
  induction steps generalizing pc m with
  | zero => exact Nat.zero_le limit
  | succ steps ih =>
    have hbounded : Bounded limit (step env limit pc m) := step_bounded pc m
    rw [run]
    cases hstep : step env limit pc m with
    | error outcome => exact hbounded outcome hstep
    | ok next => exact ih next.1 next.2

/-- What a call answers can be calldata, code or returned data again. -/
theorem length_data_call_lt (env : Env ω) (gas : Gas) (gasReadings : Stream' Uint256)
    (world : ω) : (call env gas gasReadings world).data.length < 2 ^ 64 :=
  lt_of_le_of_lt (length_data_run_le ..) gas.memory_lt

/-- With memory up to `need` and `n` steps the call ends so, and with less gas it ends so
or runs out of it. -/
def Ends (env : Env ω) (need n : Nat) (gasReadings : Stream' Uint256) (world : ω)
    (outcome : Outcome ω) : Prop :=
  ∀ gas : Gas,
    (call env gas gasReadings world = .failed .outOfGas ∨
      call env gas gasReadings world = outcome) ∧
    (need ≤ gas.memory → n ≤ gas.rounds → call env gas gasReadings world = outcome)

theorem ends_of_run {need : Nat}
    (h : ∀ limit steps, need ≤ limit →
      run env limit (n + steps) 0 (.start gasReadings world) = outcome) :
    Ends env need n gasReadings world outcome := by
  have henough : ∀ limit steps, need ≤ limit → n ≤ steps →
      run env limit steps 0 (.start gasReadings world) = outcome := by
    intro limit steps hneed hn
    obtain ⟨steps, rfl⟩ := Nat.exists_eq_add_of_le hn
    exact h limit steps hneed
  intro gas
  constructor
  · have hmax := henough (max gas.memory need) (max gas.rounds n) (le_max_right ..)
      (le_max_right ..)
    rw [← hmax]
    exact run_mono (le_max_left ..) (le_max_left ..) 0 _
  · exact henough gas.memory gas.rounds

-- ---------------------------------------------------------------------------
-- Contracts that call contracts
-- ---------------------------------------------------------------------------

/-- What an account does with calldata and the world. -/
structure Contract (ω : Type) where
  answer : Bytes → ω → Outcome ω
  data_lt : ∀ input world, (answer input world).data.length < 2 ^ 64

/-- The call of an account with this code, run beside the accounts it can call. -/
def Contract.inside (code : Bytes) (hcode : code.length < 2 ^ 64)
    (callee : Uint256 → Address → Contract ω) (calldata : Bytes)
    (hcalldata : calldata.length < 2 ^ 64) : Env ω :=
  ⟨code, calldata, fun gas target => (callee gas target).answer, hcode, hcalldata,
    fun gas target => (callee gas target).data_lt⟩

def Contract.ofCode (code : Bytes) (hcode : code.length < 2 ^ 64) (gas : Gas)
    (gasReadings : Stream' Uint256) (callee : Uint256 → Address → Contract ω) : Contract ω where
  answer calldata world :=
    -- longer calldata is nothing that gas could have paid for
    if hcalldata : calldata.length < 2 ^ 64 then
      call (Contract.inside code hcode callee calldata hcalldata) gas gasReadings world
    else .failed .outOfGas
  data_lt calldata world := by
    split
    · exact length_data_call_lt ..
    · exact Nat.two_pow_pos 64

end Evm
