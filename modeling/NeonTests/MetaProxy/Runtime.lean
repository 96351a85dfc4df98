import NeonTests.Lib.Evm
import NeonTests.MetaProxy.InitCode

/-!
# MetaProxy — what the created code does

The constructors write bytecode as numbers. Here those bytes are read as instructions
and run: first the 11 bytes that deploy, then the 54 bytes of the proxy, behind which the
metadata and its length stand as part of the code.

* `proxyCode_eq` — the bytes are the instructions `deployOps` and `runtimeOps`;
* `initCode_deploys` — running the init code answers with everything behind it;
* `created_proxy_forwards` — every call of what is created is one `DELEGATECALL` of the
  target with calldata, metadata and length, and ends as it does.
-/

namespace NeonTests.MetaProxy

open Endian Fallible Solidity EvmMemory

open Evm (Op Env Machine Outcome assemble execute executeAll executeAll_append executeAll_cons
  execute_of_exec run_block run_step run_halt toNat_size window_append window_zero)

-- ---------------------------------------------------------------------------
-- Instructions
-- ---------------------------------------------------------------------------

def pushByte (b : UInt8) : Op := .push ⟨[b], by simp, by simp⟩

def pushAddress (targetContract : Address) : Op :=
  .push ⟨beBytes 20 targetContract.toNat, by simp, by simp⟩

def deployOps : List Op :=
  [pushByte 0x0b, .codesize, .sub, .dup 0, pushByte 0x0b, .returndatasize, .codecopy,
    .returndatasize, .ret]

/-- As long as nothing was called, the size of the returned data is a cheap zero. -/
def copyCalldataOps : List Op := [.calldatasize, .returndatasize, .returndatasize, .calldatacopy]

def appendMetadataOps : List Op :=
  [.returndatasize, .returndatasize, .returndatasize, .returndatasize, pushByte 0x36, .dup 0,
    .codesize, .sub, .dup 0, .swap 1, .calldatasize, .codecopy]

def forwardOps (targetContract : Address) : List Op :=
  [.calldatasize, .add, .returndatasize, pushAddress targetContract, .gas, .delegatecall]

def copyAnswerOps : List Op :=
  [.returndatasize, .returndatasize, .swap 3, .dup 0, .returndatacopy, pushByte 0x34]

def straightOps (targetContract : Address) : List Op :=
  copyCalldataOps ++ appendMetadataOps ++ forwardOps targetContract ++ copyAnswerOps

def runtimeOps (targetContract : Address) : List Op :=
  straightOps targetContract ++ [.jumpi, .revert, .jumpdest, .ret]

/-- What stands behind the proxy's own code, and behind calldata when it calls. -/
def metadataTail (metadata : Bytes) : Bytes := metadata ++ beBytes 32 metadata.length

def deployedCode (targetContract : Address) (metadata : Bytes) : Bytes :=
  assemble (runtimeOps targetContract) ++ metadataTail metadata

/-- The numbers in the constructors are these instructions. -/
theorem proxyCode_eq (targetContract : Address) :
    proxyCode targetContract = assemble deployOps ++ assemble (runtimeOps targetContract) := by
  have hfront : beBytes 32 0x600b380380600b3d393df3363d3d373d3d3d3d60368038038091363936013d73 =
      assemble deployOps ++ assemble (copyCalldataOps ++ appendMetadataOps ++
        [.calldatasize, .add, .returndatasize]) ++ [0x73] := by decide
  have hback : beBytes 13 0x5af43d3d93803e603457fd5bf3 =
      assemble ([.gas, .delegatecall] ++ copyAnswerOps ++ [.jumpi, .revert, .jumpdest, .ret]) := by
    decide
  have hpush : (pushAddress targetContract).encode =
      0x73 :: beBytes 20 targetContract.toNat := by
    simp [pushAddress, Op.encode, Op.opcode, Op.immediate]
  rw [proxyCode, hfront, hback, runtimeOps, straightOps, forwardOps]
  simp only [Evm.assemble_append, Evm.assemble_cons, Evm.assemble_nil, hpush, List.append_assoc,
    List.cons_append, List.nil_append]

theorem initCode_eq (targetContract : Address) (metadata : Bytes) :
    initCode targetContract metadata =
      assemble deployOps ++ deployedCode targetContract metadata := by
  rw [initCode, proxyCode_eq, deployedCode, metadataTail]
  simp only [List.append_assoc]

variable {ω : Type} {env : Env ω} {limit steps : Nat} {memory : Memory} {returnData : Bytes}
  {gasReadings : Stream' Uint256} {world : ω} {targetContract : Address} {metadata : Bytes}
  {words : List Uint256}

theorem length_metadataTail (metadata : Bytes) :
    (metadataTail metadata).length = metadata.length + 32 := by
  rw [metadataTail, List.length_append, length_beBytes]

theorem length_deployedCode (targetContract : Address) (metadata : Bytes) :
    (deployedCode targetContract metadata).length = 54 + (metadata.length + 32) := by
  have hinit := length_initCode targetContract metadata
  rw [initCode_eq, List.length_append] at hinit
  have hdeploy : (assemble deployOps).length = 11 := rfl
  omega

theorem length_runtime (targetContract : Address) :
    (assemble (runtimeOps targetContract)).length = 54 := by
  have hcode := length_deployedCode targetContract []
  rw [deployedCode, List.length_append, length_metadataTail] at hcode
  omega

-- ---------------------------------------------------------------------------
-- Deploying
-- ---------------------------------------------------------------------------

/-- The first instructions leave the size of what follows them. -/
theorem toNat_size_sub {front : Nat} {bs : Bytes} {w : Uint256} (hw : w.toNat = front)
    (hlen : bs.length < 2 ^ 64) (hfront : front ≤ bs.length) :
    (Evm.size bs - w).toNat = bs.length - front := by
  have hsize := toNat_size hlen
  rw [BitVec.toNat_sub_of_le (BitVec.le_def.mpr (by omega)), hsize, hw]

theorem deploy_block (hcode : env.code = initCode targetContract metadata)
    (hlimit : (deployedCode targetContract metadata).length ≤ limit)
    (gasReadings : Stream' Uint256) (world : ω) (memory : Memory) :
    ∃ n : Uint256, n.toNat = (deployedCode targetContract metadata).length ∧
      executeAll env limit deployOps.dropLast ⟨[], memory, [], gasReadings, world⟩ =
        .ok ⟨[0, n], write memory 0 (deployedCode targetContract metadata), [], gasReadings,
          world⟩ := by
  have hlt := env.code_lt
  have hlen := length_initCode targetContract metadata
  rw [← hcode] at hlen
  have hdeployed := length_deployedCode targetContract metadata
  have hsize : (Evm.size env.code - 11).toNat =
      (deployedCode targetContract metadata).length := by
    have heleven : (11 : Uint256).toNat = 11 := rfl
    rw [toNat_size_sub heleven hlt (by omega)]
    omega
  refine ⟨Evm.size env.code - 11, hsize, ?_⟩
  have hpush : executeAll env limit [pushByte 0x0b, .codesize, .sub, .dup 0, pushByte 0x0b,
      .returndatasize] ⟨[], memory, [], gasReadings, world⟩ =
        .ok ⟨[0, 11, Evm.size env.code - 11, Evm.size env.code - 11], memory, [], gasReadings,
          world⟩ := rfl
  have hwindow : Evm.window env.code 11 (Evm.size env.code - 11) =
      deployedCode targetContract metadata := by
    rw [hcode, initCode_eq] at hsize ⊢
    exact window_append rfl hsize
  have hcopy : execute env limit .codecopy
      ⟨[0, 11, Evm.size env.code - 11, Evm.size env.code - 11], memory, [], gasReadings,
        world⟩ = _ :=
    execute_of_exec (Evm.exec_codecopy (Or.inr (by rw [hsize]; simpa using hlimit))) (by simp)
  rw [hwindow] at hcopy
  exact executeAll_append hpush (executeAll_cons hcopy)

/-- Running the init code answers with the proxy's code, the metadata and its length, and
leaves the world alone. -/
theorem initCode_deploys (env : Env ω) (targetContract : Address) (metadata : Bytes)
    (hcode : env.code = initCode targetContract metadata) (gasReadings : Stream' Uint256)
    (world : ω) :
    Evm.Ends env (deployedCode targetContract metadata).length deployOps.length gasReadings world
      (.returned (deployedCode targetContract metadata) world) := by
  refine Evm.ends_of_run fun limit steps hlimit => ?_
  obtain ⟨n, hn, hblock⟩ := deploy_block hcode hlimit gasReadings world fun _ => 0
  have hfront : env.code.drop 0 =
      assemble deployOps.dropLast ++ (Op.ret.encode ++ deployedCode targetContract metadata) := by
    rw [hcode, initCode_eq]
    rfl
  have hbehind : env.code.drop (assemble deployOps.dropLast).length =
      Op.ret.encode ++ deployedCode targetContract metadata := by
    rw [List.drop_zero] at hfront
    rw [hfront, List.drop_left]
  have hread : read (write (fun _ => 0) 0 (deployedCode targetContract metadata)) 0 n.toNat =
      deployedCode targetContract metadata := by
    rw [hn, read_write_self]
  have hret : Evm.exec env limit .ret ⟨[0, n], write (fun _ => 0) 0
      (deployedCode targetContract metadata), [], gasReadings, world⟩ =
        .error (.returned (deployedCode targetContract metadata) world) := by
    rw [Evm.exec_ret (Or.inr (by rw [hn]; simpa using hlimit))]
    exact congrArg (fun data => Except.error (Outcome.returned data world)) hread
  have hsteps : deployOps.length + steps = deployOps.dropLast.length + (steps + 1) := by
    simp only [deployOps, List.dropLast_cons_cons, List.dropLast_singleton, List.length_cons,
      List.length_nil]
    omega
  rw [hsteps, Machine.start, run_block (by decide) hfront hblock, Nat.zero_add]
  exact run_halt hbehind (Evm.next_of_ne (by decide)) hret

-- ---------------------------------------------------------------------------
-- A call of the proxy
-- ---------------------------------------------------------------------------

theorem copyCalldata_block (hlimit : env.calldata.length ≤ limit) :
    executeAll env limit copyCalldataOps ⟨[], memory, [], gasReadings, world⟩ =
      .ok ⟨[], write memory 0 env.calldata, [], gasReadings, world⟩ := by
  have hsize := toNat_size env.calldata_lt
  have hpush : executeAll env limit [.calldatasize, .returndatasize, .returndatasize]
      ⟨[], memory, [], gasReadings, world⟩ =
        .ok ⟨[0, 0, Evm.size env.calldata], memory, [], gasReadings, world⟩ := rfl
  have hcopy : execute env limit .calldatacopy
      ⟨[0, 0, Evm.size env.calldata], memory, [], gasReadings, world⟩ = _ :=
    execute_of_exec (Evm.exec_calldatacopy (Or.inr (by rw [hsize]; simpa using hlimit))) (by simp)
  rw [window_zero hsize] at hcopy
  exact executeAll_append hpush (executeAll_cons hcopy)

theorem appendMetadata_block (hcode : env.code = deployedCode targetContract metadata)
    (hlimit : env.calldata.length + (metadataTail metadata).length ≤ limit)
    (memory : Memory) (gasReadings : Stream' Uint256) (world : ω) :
    ∃ n : Uint256, n.toNat = (metadataTail metadata).length ∧
      executeAll env limit appendMetadataOps ⟨[], memory, [], gasReadings, world⟩ =
        .ok ⟨[n, 0, 0, 0, 0], write memory env.calldata.length (metadataTail metadata), [],
          gasReadings, world⟩ := by
  have hlt := env.code_lt
  have hcalldata := toNat_size env.calldata_lt
  have hlen := length_deployedCode targetContract metadata
  rw [← hcode] at hlen
  have htail := length_metadataTail metadata
  have hstart : (54 : Uint256).toNat = 54 := rfl
  have hsize : (Evm.size env.code - 54).toNat = (metadataTail metadata).length := by
    rw [toNat_size_sub hstart hlt (by omega)]
    omega
  refine ⟨Evm.size env.code - 54, hsize, ?_⟩
  have hpush : executeAll env limit appendMetadataOps.dropLast
      ⟨[], memory, [], gasReadings, world⟩ =
        .ok ⟨[Evm.size env.calldata, 54, Evm.size env.code - 54, Evm.size env.code - 54,
          0, 0, 0, 0], memory, [], gasReadings, world⟩ := rfl
  have hwindow : Evm.window env.code 54 (Evm.size env.code - 54) = metadataTail metadata := by
    rw [hcode, deployedCode] at hsize ⊢
    exact window_append (hstart.trans (length_runtime targetContract).symm) hsize
  have hcopy : execute env limit .codecopy
      ⟨[Evm.size env.calldata, 54, Evm.size env.code - 54, Evm.size env.code - 54, 0, 0, 0, 0],
        memory, [], gasReadings, world⟩ = _ :=
    execute_of_exec (Evm.exec_codecopy (Or.inr (by rw [hsize, hcalldata]; exact hlimit)))
      (by simp)
  rw [hwindow, hcalldata] at hcopy
  exact executeAll_append hpush (executeAll_cons hcopy)

theorem setWidth_wordOf_address (targetContract : Address) :
    (wordOf (beBytes 20 targetContract.toNat)).setWidth 160 = targetContract := by
  have hlt := targetContract.isLt
  apply BitVec.eq_of_toNat_eq
  rw [BitVec.toNat_setWidth, wordOf, BitVec.toNat_ofNat, beNat_beBytes (by norm_num; omega)]
  omega

theorem forward_block (targetContract : Address) (gasReadings : Stream' Uint256) (world : ω)
    {n : Uint256} (hn : n.toNat = (metadataTail metadata).length)
    (hlimit : env.calldata.length + (metadataTail metadata).length ≤ limit)
    (hlt : env.calldata.length + (metadataTail metadata).length < 2 ^ 256)
    (hmemory : Holds memory 0 (env.calldata ++ metadataTail metadata)) :
    executeAll env limit (forwardOps targetContract)
        ⟨[n, 0, 0, 0, 0], memory, [], gasReadings, world⟩ =
      let outcome := env.delegatecall gasReadings.head targetContract
        (env.calldata ++ metadataTail metadata) world
      .ok ⟨[outcome.flag, 0, 0], memory, outcome.data, gasReadings.tail,
        outcome.worldAfter world⟩ := by
  have hcalldata := toNat_size env.calldata_lt
  have hsum : (Evm.size env.calldata + n).toNat =
      (env.calldata ++ metadataTail metadata).length := by
    rw [toNat_add hn (by omega), hcalldata, List.length_append]
  have hpush : executeAll env limit (forwardOps targetContract).dropLast
      ⟨[n, 0, 0, 0, 0], memory, [], gasReadings, world⟩ =
        .ok ⟨[gasReadings.head, wordOf (beBytes 20 targetContract.toNat), 0,
          Evm.size env.calldata + n, 0, 0, 0, 0], memory, [], gasReadings.tail, world⟩ := rfl
  have hcall : execute env limit .delegatecall
      ⟨[gasReadings.head, wordOf (beBytes 20 targetContract.toNat), 0,
          Evm.size env.calldata + n, 0, 0, 0, 0], memory, [], gasReadings.tail, world⟩ = _ :=
    execute_of_exec (Evm.exec_delegatecall (Or.inr (by rw [hsum]; simpa using hlimit)) rfl)
      (by simp)
  have hread : read memory (0 : Uint256).toNat (Evm.size env.calldata + n).toNat =
      env.calldata ++ metadataTail metadata := hmemory.read hsum
  rw [hread, setWidth_wordOf_address] at hcall
  exact executeAll_append hpush (executeAll_cons hcall)

theorem copyAnswer_block {flag : Uint256} (hlt : returnData.length < 2 ^ 64)
    (hlimit : returnData.length ≤ limit) :
    executeAll env limit copyAnswerOps
        ⟨[flag, 0, 0], memory, returnData, gasReadings, world⟩ =
      .ok ⟨[0x34, flag, 0, Evm.size returnData], write memory 0 returnData, returnData,
        gasReadings, world⟩ := by
  have hsize := toNat_size hlt
  have hpush : executeAll env limit [.returndatasize, .returndatasize, .swap 3, .dup 0]
      ⟨[flag, 0, 0], memory, returnData, gasReadings, world⟩ =
        .ok ⟨[0, 0, Evm.size returnData, flag, 0, Evm.size returnData], memory, returnData,
          gasReadings, world⟩ := rfl
  have hcopy : execute env limit .returndatacopy
      ⟨[0, 0, Evm.size returnData, flag, 0, Evm.size returnData], memory, returnData,
        gasReadings, world⟩ = _ :=
    execute_of_exec (Evm.exec_returndatacopy (by rw [hsize]; simp)
      (Or.inr (by rw [hsize]; simpa using hlimit))) (by simp)
  rw [window_zero hsize] at hcopy
  exact executeAll_append hpush (executeAll_cons hcopy)

/-- A proxy ends as its target did; a target that failed leaves nothing to revert with. -/
def passOn : Outcome ω → Outcome ω
  | .returned data world => .returned data world
  | .reverted data => .reverted data
  | .failed _ => .reverted []

/-- Everything in front of the conditional jump. -/
theorem straight_block (hcode : env.code = deployedCode targetContract metadata)
    (gasReadings : Stream' Uint256) (world : ω)
    (hinput : env.calldata.length + (metadataTail metadata).length ≤ limit)
    {outcome : Outcome ω}
    (houtcome : env.delegatecall gasReadings.head targetContract
      (env.calldata ++ metadataTail metadata) world = outcome)
    (hanswer : outcome.data.length ≤ limit) :
    ∃ memory : Memory, Holds memory 0 outcome.data ∧
      executeAll env limit (straightOps targetContract) (.start gasReadings world) =
        .ok ⟨[0x34, outcome.flag, 0, Evm.size outcome.data], memory, outcome.data,
          gasReadings.tail, outcome.worldAfter world⟩ := by
  have hcalldata := env.calldata_lt
  have hcodelt := env.code_lt
  have hlen := length_deployedCode targetContract metadata
  have htail := length_metadataTail metadata
  rw [← hcode] at hlen
  have hdata : outcome.data.length < 2 ^ 64 := by
    rw [← houtcome]
    exact env.data_lt ..
  obtain ⟨n, hn, happend⟩ := appendMetadata_block hcode hinput
    (write (fun _ => 0) 0 env.calldata) gasReadings world
  have hholds : Holds (write (write (fun _ => 0) 0 env.calldata) env.calldata.length
      (metadataTail metadata)) 0 (env.calldata ++ metadataTail metadata) :=
    (holds_write _ 0 env.calldata).write_behind (Nat.zero_add _).symm
  have hforward := forward_block targetContract gasReadings world hn hinput (by omega) hholds
  rw [houtcome] at hforward
  refine ⟨write (write (write (fun _ => 0) 0 env.calldata) env.calldata.length
    (metadataTail metadata)) 0 outcome.data, holds_write _ 0 outcome.data, ?_⟩
  exact executeAll_append (executeAll_append (executeAll_append
    (copyCalldata_block (by omega)) happend) hforward) (copyAnswer_block hdata hanswer)

theorem length_straightOps (targetContract : Address) :
    (assemble (straightOps targetContract)).length = 50 := by
  have hlen := length_runtime targetContract
  rw [runtimeOps, Evm.assemble_append, List.length_append] at hlen
  have hlast : (assemble [Op.jumpi, .revert, .jumpdest, .ret]).length = 4 := rfl
  omega

/-- The end of the proxy's code, from the conditional jump on. -/
theorem drop_straightOps (hcode : env.code = deployedCode targetContract metadata) :
    env.code.drop 50 = assemble [.jumpi, .revert, .jumpdest, .ret] ++ metadataTail metadata := by
  rw [hcode, deployedCode, runtimeOps, Evm.assemble_append, List.append_assoc,
    ← length_straightOps targetContract, List.drop_left]

/-- The jump goes to the instruction in front of the last. -/
theorem isDest_runtime (hcode : env.code = deployedCode targetContract metadata) :
    Evm.isDest env.code 0 52 = true := by
  have hlen : (assemble (straightOps targetContract ++ [.jumpi, .revert])).length = 52 := by
    rw [Evm.assemble_append, List.length_append, length_straightOps]
    rfl
  have hsplit : env.code = assemble (straightOps targetContract ++ [.jumpi, .revert]) ++
      Op.jumpdest.encode ++ (Op.ret.encode ++ metadataTail metadata) := by
    rw [hcode, deployedCode, runtimeOps, Evm.assemble_append, Evm.assemble_append]
    simp only [Evm.assemble_cons, Evm.assemble_nil, List.append_assoc, List.append_nil]
  rw [hsplit, ← hlen]
  exact Evm.isDest_assemble ..

/-- A call that did not return: the program goes on behind the jump and reverts. -/
theorem run_not_taken (hcode : env.code = deployedCode targetContract metadata)
    (hlt : returnData.length < 2 ^ 64) (hlimit : returnData.length ≤ limit)
    (hmemory : Holds memory 0 returnData) :
    Evm.run env limit (2 + steps) 50
        ⟨[0x34, 0, 0, Evm.size returnData], memory, returnData, gasReadings, world⟩ =
      .reverted returnData := by
  have hdrop := drop_straightOps hcode
  have hsize := toNat_size hlt
  have hbehind : env.code.drop 51 =
      Op.revert.encode ++ (assemble [.jumpdest, .ret] ++ metadataTail metadata) := by
    show env.code.drop (50 + 1) = _
    rw [← List.drop_drop, hdrop]
    rfl
  have hrevert : Evm.exec env limit .revert
      ⟨[0, Evm.size returnData], memory, returnData, gasReadings, world⟩ = _ :=
    Evm.exec_revert (Or.inr (by rw [hsize]; simpa using hlimit))
  have hread : read memory (0 : Uint256).toNat (Evm.size returnData).toNat = returnData :=
    hmemory.read hsize
  rw [hread] at hrevert
  rw [show 2 + steps = steps + 1 + 1 by omega, run_step hdrop rfl rfl]
  exact run_halt hbehind (Evm.next_of_ne (by decide)) hrevert

/-- A call that returned: the program jumps and returns. -/
theorem run_taken (hcode : env.code = deployedCode targetContract metadata)
    (hlt : returnData.length < 2 ^ 64) (hlimit : returnData.length ≤ limit)
    (hmemory : Holds memory 0 returnData) :
    Evm.run env limit (3 + steps) 50
        ⟨[0x34, 1, 0, Evm.size returnData], memory, returnData, gasReadings, world⟩ =
      .returned returnData world := by
  have hdrop := drop_straightOps hcode
  have hsize := toNat_size hlt
  have hdest : env.code.drop 52 =
      Op.jumpdest.encode ++ (Op.ret.encode ++ metadataTail metadata) := by
    show env.code.drop (50 + 2) = _
    rw [← List.drop_drop, hdrop]
    rfl
  have hlast : env.code.drop 53 = Op.ret.encode ++ metadataTail metadata := by
    show env.code.drop (52 + 1) = _
    rw [← List.drop_drop, hdest]
    rfl
  have hnext : Evm.next env 50 .jumpi
      ⟨[0x34, 1, 0, Evm.size returnData], memory, returnData, gasReadings, world⟩ = .ok 52 := by
    show (do guard (Evm.isDest env.code 0 52 = true) _; return 52 : Except (Outcome ω) Nat) = _
    rw [guard_of (isDest_runtime hcode), ok_bind]
    rfl
  have hret : Evm.exec env limit .ret
      ⟨[0, Evm.size returnData], memory, returnData, gasReadings, world⟩ = _ :=
    Evm.exec_ret (Or.inr (by rw [hsize]; simpa using hlimit))
  have hread : read memory (0 : Uint256).toNat (Evm.size returnData).toNat = returnData :=
    hmemory.read hsize
  rw [hread] at hret
  rw [show 3 + steps = steps + 1 + 1 + 1 by omega, run_step hdrop hnext rfl,
    run_step hdest (Evm.next_of_ne (by decide)) rfl]
  exact run_halt hlast (Evm.next_of_ne (by decide)) hret

/-- A call of the proxy, given how the call that it makes ends. -/
theorem deployed_ends (env : Env ω) (targetContract : Address) (metadata : Bytes)
    (hcode : env.code = deployedCode targetContract metadata) (gasReadings : Stream' Uint256)
    (world : ω) (outcome : Outcome ω)
    (houtcome : env.delegatecall gasReadings.head targetContract
      (env.calldata ++ metadataTail metadata) world = outcome) :
    Evm.Ends env (max (env.calldata.length + (metadata.length + 32)) outcome.data.length) 31
      gasReadings world (passOn outcome) := by
  have hdata : outcome.data.length < 2 ^ 64 := by
    rw [← houtcome]
    exact env.data_lt ..
  refine Evm.ends_of_run fun limit steps hlimit => ?_
  have hinput : env.calldata.length + (metadataTail metadata).length ≤ limit := by
    rw [length_metadataTail]
    exact (le_max_left ..).trans hlimit
  have hanswer : outcome.data.length ≤ limit := (le_max_right ..).trans hlimit
  obtain ⟨memory, hmemory, hblock⟩ := straight_block hcode gasReadings world hinput houtcome hanswer
  have hfront : env.code.drop 0 = assemble (straightOps targetContract) ++
      (assemble [.jumpi, .revert, .jumpdest, .ret] ++ metadataTail metadata) := by
    rw [List.drop_zero, hcode, deployedCode, runtimeOps, Evm.assemble_append, List.append_assoc]
  have hstraight : .jumpi ∉ straightOps targetContract := by
    simp [straightOps, copyCalldataOps, appendMetadataOps, forwardOps, copyAnswerOps, pushByte,
      pushAddress]
  have hlen : (straightOps targetContract).length = 28 := rfl
  have hsteps : 31 + steps = (straightOps targetContract).length + (3 + steps) := by omega
  rw [hsteps, run_block hstraight hfront hblock, length_straightOps, Nat.zero_add]
  cases outcome with
  | returned data world' => exact run_taken hcode hdata hanswer hmemory
  | reverted data =>
    rw [show 3 + steps = 2 + (1 + steps) by omega]
    exact run_not_taken hcode hdata hanswer hmemory
  | failed e =>
    rw [show 3 + steps = 2 + (1 + steps) by omega]
    exact run_not_taken hcode hdata hanswer hmemory

/-- **What a created proxy does.** For every target and every metadata: running the init code
leaves the world alone and answers with a code, unless the gas does not reach, and an account
with that code makes one `DELEGATECALL` whatever it is called with: of the target, with the
calldata it got, then the metadata and the metadata's length as a word. What that call answers
it answers, returning or reverting as it did; the only other way it can end is that its gas
does not reach. -/
theorem created_proxy_forwards (creation : Env ω) (targetContract : Address) (metadata : Bytes)
    (hinit : creation.code = initCode targetContract metadata)
    (creationReadings : Stream' Uint256) (world₀ : ω) :
    (∀ gas, 86 + metadata.length ≤ gas.memory → 9 ≤ gas.rounds →
      ∃ code, Evm.call creation gas creationReadings world₀ = .returned code world₀) ∧
    ∀ gas, Evm.call creation gas creationReadings world₀ = .failed .outOfGas ∨
      ∃ code, Evm.call creation gas creationReadings world₀ = .returned code world₀ ∧
        ∀ env : Env ω, env.code = code → ∀ gasReadings world,
          let outcome := env.delegatecall gasReadings.head targetContract
            (env.calldata ++ metadata ++ beBytes 32 metadata.length) world
          Evm.Ends env (max (env.calldata.length + (metadata.length + 32)) outcome.data.length) 31
            gasReadings world (passOn outcome) := by
  have hdeploys := initCode_deploys creation targetContract metadata hinit creationReadings world₀
  have hlen := length_deployedCode targetContract metadata
  constructor
  · intro gas hmemory hrounds
    exact ⟨_, (hdeploys gas).2 (by omega) hrounds⟩
  · intro gas
    refine (hdeploys gas).1.imp_right fun hcall => ⟨_, hcall, ?_⟩
    intro env hcode gasReadings world outcome
    refine deployed_ends env targetContract metadata hcode gasReadings world outcome ?_
    rw [metadataTail, ← List.append_assoc]

/-- A proxy with two bytes of metadata, in front of a target that reverts with seven. -/
theorem created_proxy_reverts :
    let creation : Env Unit := ⟨initCode 0xc0ffe [1, 2], [], fun _ _ _ _ => .failed .outOfGas,
      by decide, by decide, fun _ _ _ _ => by decide⟩
    let env : Env Unit := ⟨deployedCode 0xc0ffe [1, 2], [9, 9, 9, 9],
      fun _ _ _ _ => .reverted [7], by decide, by decide, fun _ _ _ _ => by decide⟩
    Evm.call creation ⟨88, 9, by decide⟩ (fun _ => 0) () =
        .returned (deployedCode 0xc0ffe [1, 2]) () ∧
      Evm.call env ⟨38, 31, by decide⟩ (fun _ => 0) () = .reverted [7] := by
  intro creation env
  have hcreated : Evm.call creation ⟨88, 9, by decide⟩ (fun _ => 0) () =
      .returned (deployedCode 0xc0ffe [1, 2]) () :=
    (initCode_deploys creation 0xc0ffe [1, 2] rfl (fun _ => 0) () ⟨88, 9, by decide⟩).2
      (by decide) (by decide)
  obtain hgas | ⟨code, hcall, hforward⟩ :=
    (created_proxy_forwards creation 0xc0ffe [1, 2] rfl (fun _ => 0) ()).2 ⟨88, 9, by decide⟩
  · exact absurd (hcreated.symm.trans hgas) nofun
  · cases hcreated.symm.trans hcall
    exact ⟨hcreated, (hforward env rfl (fun _ => 0) () ⟨38, 31, by decide⟩).2 (by decide)
      (by decide)⟩

end NeonTests.MetaProxy
