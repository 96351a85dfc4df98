import NeonTests.MetaProxy.Runtime

/-!
# MetaProxy — reading the metadata back

`contracts/EIPs/MetaProxy.sol`: the two functions that find the metadata from the end of
calldata, and what a proxy in front of them does to a call.

* `getMetadataViaCall_eq_ok` / `getMetadataWithoutCall_ok` — what they find, in any calldata
  that ends in metadata and its length;
* `proxy_returned` / `proxy_of_returned` — a call through a proxy returns what its target does.
-/

namespace NeonTests.MetaProxy

open Endian Fallible Solidity EvmMemory

open Evm (Contract Outcome)

-- ---------------------------------------------------------------------------
-- The functions
-- ---------------------------------------------------------------------------

def calldataload (calldata : Bytes) (p : Uint256) : Uint256 :=
  wordOf ((calldata.drop p.toNat).takeD 32 0)

def posOfMetadataSize (calldata : Bytes) : Uint256 := calldatasize calldata - 32

def metadataSize (calldata : Bytes) : Uint256 :=
  calldataload calldata (posOfMetadataSize calldata)

def dataPtr (calldata : Bytes) : Uint256 :=
  posOfMetadataSize calldata - metadataSize calldata

/-- The assembly returns from the call, not from the function. -/
def getMetadataViaCall (gas : Gas) (m : Memory) (calldata : Bytes) : Except Halt Bytes := do
  let m ← calldatacopy gas m calldata 0 (dataPtr calldata) (metadataSize calldata)
  return read m 0 (metadataSize calldata).toNat

/-- The assembly block; `data` is the pointer that is decoded behind it. -/
def getMetadataWithoutCall (gas : Gas) (m : Memory) (calldata : Bytes) :
    Except Halt (Memory × Uint256) := do
  let data ← mload gas m 64
  -- increment free memory pointer by metadata size + 32 bytes (length)
  let m ← mstore gas m 64 (data + (metadataSize calldata + 32))
  let m ← mstore gas m data (metadataSize calldata)
  let m ← calldatacopy gas m calldata (data + 32) (dataPtr calldata) (metadataSize calldata)
  return (m, data)

-- ---------------------------------------------------------------------------
-- Calldata that ends in metadata
-- ---------------------------------------------------------------------------

variable {gas : Gas} {m m' : Memory} {front metadata answer : Bytes} {data : Uint256}

theorem toNat_calldatasize {calldata : Bytes} (h : calldata.length < 2 ^ 256) :
    (calldatasize calldata).toNat = calldata.length := by
  rw [calldatasize, BitVec.toNat_ofNat, Nat.mod_eq_of_lt h]

theorem toNat_posOfMetadataSize (h : (front ++ metadataTail metadata).length < 2 ^ 256) :
    (posOfMetadataSize (front ++ metadataTail metadata)).toNat =
      front.length + metadata.length := by
  have hsize := toNat_calldatasize h
  have hlen : (front ++ metadataTail metadata).length = front.length + (metadata.length + 32) := by
    rw [List.length_append, length_metadataTail]
  have hword : (32 : Uint256).toNat = 32 := rfl
  rw [posOfMetadataSize, BitVec.toNat_sub_of_le (BitVec.le_def.mpr (by omega)), hsize, hword]
  omega

theorem toNat_metadataSize (h : (front ++ metadataTail metadata).length < 2 ^ 256) :
    (metadataSize (front ++ metadataTail metadata)).toNat = metadata.length := by
  have hpos := toNat_posOfMetadataSize h
  have hlt : metadata.length < 2 ^ 256 := by
    rw [List.length_append, length_metadataTail] at h
    omega
  have hdrop : (front ++ metadataTail metadata).drop
      (posOfMetadataSize (front ++ metadataTail metadata)).toNat =
        beBytes 32 metadata.length := by
    rw [hpos, metadataTail, ← List.append_assoc, ← List.length_append, List.drop_left]
  rw [metadataSize, calldataload, hdrop, List.takeD_eq_take 0 (by simp),
    List.take_of_length_le (by simp), wordOf, BitVec.toNat_ofNat, beNat_beBytes (by norm_num; omega),
    Nat.mod_eq_of_lt hlt]

theorem toNat_dataPtr (h : (front ++ metadataTail metadata).length < 2 ^ 256) :
    (dataPtr (front ++ metadataTail metadata)).toNat = front.length := by
  have hpos := toNat_posOfMetadataSize h
  have hsize := toNat_metadataSize h
  rw [dataPtr, BitVec.toNat_sub_of_le (BitVec.le_def.mpr (by omega)), hpos, hsize]
  omega

/-- What both functions copy. -/
theorem metadata_window (h : (front ++ metadataTail metadata).length < 2 ^ 256) :
    ((front ++ metadataTail metadata).drop
      (dataPtr (front ++ metadataTail metadata)).toNat).takeD
        (metadataSize (front ++ metadataTail metadata)).toNat 0 = metadata := by
  rw [toNat_dataPtr h, toNat_metadataSize h, List.drop_left, metadataTail,
    List.takeD_eq_take 0 (by simp), List.take_left]

theorem getMetadataViaCall_eq_ok (h : (front ++ metadataTail metadata).length < 2 ^ 256) :
    getMetadataViaCall gas m (front ++ metadataTail metadata) = .ok answer ↔
      metadata.length ≤ gas.memory ∧ answer = metadata := by
  have hsize := toNat_metadataSize h
  have hwindow := metadata_window h
  unfold getMetadataViaCall
  rw [bind_eq_ok]
  constructor
  · rintro ⟨m₁, hcopy, hread⟩
    obtain ⟨hreach, rfl⟩ := calldatacopy_eq_ok.mp hcopy
    have hzero : (0 : Uint256).toNat = 0 := rfl
    rw [hwindow, hsize, pure_eq_ok] at hread
    refine ⟨by omega, hread.symm.trans (read_write_self ..)⟩
  · rintro ⟨hreach, rfl⟩
    refine ⟨_, calldatacopy_eq_ok.mpr ⟨Or.inr ?_, rfl⟩, ?_⟩
    · rw [hsize]
      simpa using hreach
    · rw [hwindow, hsize, pure_eq_ok]
      exact read_write_self ..

/-- The pointer's bytes are the metadata as a `bytes` value, and the free memory begins
behind them. -/
theorem getMetadataWithoutCall_ok {start : Uint256} (hfree : Holds m 64 (wordBytes start))
    (hstart : 96 ≤ start.toNat) (h : (front ++ metadataTail metadata).length < 2 ^ 256)
    (hroom : start.toNat + 32 + metadata.length ≤ gas.memory) :
    ∃ m', getMetadataWithoutCall gas m (front ++ metadataTail metadata) = .ok (m', start) ∧
      Holds m' start.toNat (beBytes 32 metadata.length ++ metadata) ∧
      ∃ free : Uint256, Holds m' 64 (wordBytes free) ∧
        free.toNat = start.toNat + 32 + metadata.length := by
  have hgas := gas.memory_lt
  have hsize := toNat_metadataSize h
  have hwindow := metadata_window h
  have hbytes : wordBytes (metadataSize (front ++ metadataTail metadata)) =
      beBytes 32 metadata.length := by
    rw [wordBytes, hsize]
  have hword : (32 : Uint256).toNat = 32 := rfl
  have hslot : (64 : Uint256).toNat = 64 := rfl
  have hptr : (start + 32).toNat = start.toNat + 32 := toNat_add hword (by omega)
  have hbehind : (metadataSize (front ++ metadataTail metadata) + 32).toNat =
      metadata.length + 32 := by
    rw [toNat_add hword (by omega), hsize]
  have hfree' : (start + (metadataSize (front ++ metadataTail metadata) + 32)).toNat =
      start.toNat + 32 + metadata.length := by
    rw [toNat_add hbehind (by omega)]
    omega
  have hmetadata : Holds (write (write (write m 64 (wordBytes
      (start + (metadataSize (front ++ metadataTail metadata) + 32)))) start.toNat
        (beBytes 32 metadata.length)) (start + 32).toNat metadata) start.toNat
          (beBytes 32 metadata.length ++ metadata) :=
    (holds_write ..).write_behind (by rw [hptr, length_beBytes])
  have hpointer : Holds (write (write (write m 64 (wordBytes
      (start + (metadataSize (front ++ metadataTail metadata) + 32)))) start.toNat
        (beBytes 32 metadata.length)) (start + 32).toNat metadata) 64
          (wordBytes (start + (metadataSize (front ++ metadataTail metadata) + 32))) := by
    refine ((holds_write ..).write_of_disjoint ?_).write_of_disjoint ?_
    · rw [length_wordBytes]
      exact Or.inl hstart
    · rw [length_wordBytes, hptr]
      exact Or.inl (by omega)
  refine ⟨_, ?_, hmetadata, _, hpointer, hfree'⟩
  rw [getMetadataWithoutCall, mload_start hfree (by omega), ok_bind,
    mstore_eq_ok.mpr ⟨by rw [hslot]; omega, rfl⟩, ok_bind,
    mstore_eq_ok.mpr ⟨by omega, rfl⟩, ok_bind,
    calldatacopy_eq_ok.mpr ⟨Or.inr (by rw [hptr, hsize]; omega), rfl⟩, ok_bind, hwindow, hbytes]
  rfl

theorem room_of_getMetadataWithoutCall {start : Uint256} {r : Memory × Uint256}
    (hfree : Holds m 64 (wordBytes start))
    (h : (front ++ metadataTail metadata).length < 2 ^ 256)
    (hok : getMetadataWithoutCall gas m (front ++ metadataTail metadata) = .ok r) :
    start.toNat + 32 + metadata.length ≤ gas.memory := by
  have hgas := gas.memory_lt
  have hsize := toNat_metadataSize h
  have hword : (32 : Uint256).toNat = 32 := rfl
  obtain ⟨w, hload, hok⟩ := bind_eq_ok.mp hok
  obtain ⟨-, rfl⟩ := eq_start hfree hload
  obtain ⟨m₁, -, hok⟩ := bind_eq_ok.mp hok
  obtain ⟨m₂, hstore, hok⟩ := bind_eq_ok.mp hok
  obtain ⟨m₃, hcopy, -⟩ := bind_eq_ok.mp hok
  have hfront := (mstore_eq_ok.mp hstore).1
  have hreach := (calldatacopy_eq_ok.mp hcopy).1
  rw [toNat_add hword (by omega), hsize] at hreach
  omega

/-- Calldata too short for a length: none is found behind its end. -/
theorem getMetadataViaCall_short {calldata : Bytes} (hshort : calldata.length < 32)
    (h : getMetadataViaCall gas m calldata = .ok answer) : answer = [] := by
  have hpos : calldata.length ≤ (posOfMetadataSize calldata).toNat := by
    have hsize : (calldatasize calldata).toNat = calldata.length := toNat_calldatasize (by omega)
    have hword : (32 : Uint256).toNat = 32 := rfl
    rw [posOfMetadataSize, BitVec.toNat_sub, hsize, hword]
    omega
  have hnone : metadataSize calldata = 0 := by
    rw [metadataSize, calldataload, List.drop_eq_nil_of_le hpos]
    rfl
  obtain ⟨m₁, -, hread⟩ := bind_eq_ok.mp h
  rw [← pure_eq_ok.mp hread, hnone]
  rfl

-- ---------------------------------------------------------------------------
-- A proxy in front of a contract
-- ---------------------------------------------------------------------------

/-- What a contract finds behind the calldata of a call through proxies with these metadata, the
outermost first. -/
def appended (metadatas : List Bytes) : Bytes := metadatas.flatMap metadataTail

theorem appended_cons (metadata : Bytes) (metadatas : List Bytes) :
    appended (metadata :: metadatas) = metadataTail metadata ++ appended metadatas := rfl

theorem appended_concat (metadatas : List Bytes) (metadata : Bytes) :
    appended (metadatas ++ [metadata]) = appended metadatas ++ metadataTail metadata := by
  rw [appended, List.flatMap_append, List.flatMap_singleton, appended]

variable {ω : Type} {callee : Uint256 → Address → Contract ω} {gasReadings : Stream' Uint256}
  {code calldata bytes : Bytes} {targetContract : Address} {world world' : ω}

theorem passOn_eq_returned {outcome : Outcome ω} :
    passOn outcome = .returned bytes world ↔ outcome = .returned bytes world := by
  cases outcome with
  | returned data w => exact Iff.rfl
  | reverted data => exact ⟨nofun, nofun⟩
  | failed e => exact ⟨nofun, nofun⟩

theorem proxy_answer (hcode : code = deployedCode targetContract metadata)
    (hlt : code.length < 2 ^ 64) (callee : Uint256 → Address → Contract ω) (gas : Gas)
    (gasReadings : Stream' Uint256) (world : ω) (hcalldata : calldata.length < 2 ^ 64) :
    let outcome := (callee gasReadings.head targetContract).answer
      (calldata ++ metadataTail metadata) world
    let proxy := Contract.ofCode code hlt gas gasReadings callee
    (proxy.answer calldata world = .failed .outOfGas ∨
      proxy.answer calldata world = passOn outcome) ∧
    (max (calldata.length + (metadata.length + 32)) outcome.data.length ≤ gas.memory →
      31 ≤ gas.rounds → proxy.answer calldata world = passOn outcome) := by
  intro outcome proxy
  have hproxy : proxy.answer calldata world =
      Evm.call (Contract.inside code hlt callee calldata hcalldata) gas gasReadings world :=
    dif_pos hcalldata
  rw [hproxy]
  exact deployed_ends _ targetContract metadata hcode gasReadings world outcome rfl gas

/-- What returns through a proxy was returned by its target, to calldata that gas could
pay for. -/
theorem proxy_returned (hcode : code = deployedCode targetContract metadata)
    {hlt : code.length < 2 ^ 64}
    (h : (Contract.ofCode code hlt gas gasReadings callee).answer calldata world =
      .returned bytes world') :
    calldata.length < 2 ^ 64 ∧ (callee gasReadings.head targetContract).answer
      (calldata ++ metadataTail metadata) world = .returned bytes world' := by
  by_cases hcalldata : calldata.length < 2 ^ 64
  · refine ⟨hcalldata, ?_⟩
    obtain hgas | hpass := (proxy_answer hcode hlt callee gas gasReadings world hcalldata).1
    · exact absurd (h.symm.trans hgas) nofun
    · exact passOn_eq_returned.mp (hpass.symm.trans h)
  · have hfailed : (Contract.ofCode code hlt gas gasReadings callee).answer calldata world =
        .failed .outOfGas := dif_neg hcalldata
    exact absurd (h.symm.trans hfailed) nofun

/-- What the target returns is returned through a proxy with enough gas. -/
theorem proxy_of_returned (hcode : code = deployedCode targetContract metadata)
    (hlt : code.length < 2 ^ 64)
    (hinput : calldata.length + (metadata.length + 32) ≤ gas.memory)
    (hbytes : bytes.length ≤ gas.memory) (hrounds : 31 ≤ gas.rounds)
    (h : (callee gasReadings.head targetContract).answer (calldata ++ metadataTail metadata)
      world = .returned bytes world') :
    (Contract.ofCode code hlt gas gasReadings callee).answer calldata world =
      .returned bytes world' := by
  have hgas := gas.memory_lt
  have hcalldata : calldata.length < 2 ^ 64 := by omega
  have hanswer := (proxy_answer hcode hlt callee gas gasReadings world hcalldata).2
  rw [h] at hanswer
  exact hanswer (max_le hinput hbytes) hrounds

end NeonTests.MetaProxy
