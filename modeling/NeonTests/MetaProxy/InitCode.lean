import NeonTests.MetaProxy.Definitions

/-!
# MetaProxy — the two constructors create the same code

The stores overlap: the target's word leaves 12 zero bytes behind the address, the
remaining code 19 behind its 13 bytes, and the copy of the metadata up to 31 bytes
behind its end. Every store starts where the bytes that are kept so far end, so
"these bytes stand at `start`" grows along the stores (`Holds.write_behind`), and what
a store wrote too much is dropped again (`holds_append`).

* `storeProxyCode_ok` — the bytes in front of the metadata;
* `copyWords_ok` — the loop's invariant: the first `i` bytes of the metadata are copied
  and its source is untouched;
* `createProxy_ok` — the length word and what `create` reads.
-/

namespace NeonTests.MetaProxy

open Endian Fallible Solidity EvmMemory

/-- Everything in front of the metadata. -/
def proxyCode (targetContract : Address) : Bytes :=
  beBytes 32 0x600b380380600b3d393df3363d3d373d3d3d3d60368038038091363936013d73 ++
    beBytes 20 targetContract.toNat ++ beBytes 13 0x5af43d3d93803e603457fd5bf3

/-- The code a proxy is created from. -/
def initCode (targetContract : Address) (metadata : Bytes) : Bytes :=
  proxyCode targetContract ++ metadata ++ beBytes 32 metadata.length

variable {gas : Gas} {m m' : Memory} {start ptr offset length i : Uint256}
  {targetContract : Address} {metadata front : Bytes} {base rounds : Nat}

@[simp] theorem length_proxyCode (targetContract : Address) :
    (proxyCode targetContract).length = 65 := by
  simp [proxyCode]

theorem length_initCode (targetContract : Address) (metadata : Bytes) :
    (initCode targetContract metadata).length = 97 + metadata.length := by
  rw [initCode, List.length_append, List.length_append, length_proxyCode, length_beBytes]
  omega

-- ---------------------------------------------------------------------------
-- In front of the metadata
-- ---------------------------------------------------------------------------

/-- The target's word: the address, then 12 zero bytes. -/
theorem wordBytes_target (targetContract : Address) :
    wordBytes (targetContract.setWidth 256 <<< 96) =
      beBytes 20 targetContract.toNat ++ List.replicate 12 0 := by
  have hlt := targetContract.isLt
  have hnum : (targetContract.setWidth 256 <<< 96).toNat = 256 ^ 12 * targetContract.toNat := by
    rw [BitVec.toNat_shiftLeft, toNat_setWidth_of_le (by omega), Nat.shiftLeft_eq]
    omega
  rw [wordBytes, hnum, beBytes_pow_mul 12 20]

theorem wordBytes_remainingCode :
    wordBytes remainingCode =
      beBytes 13 0x5af43d3d93803e603457fd5bf3 ++ List.replicate 19 0 := by
  have hnum : remainingCode.toNat = 256 ^ 19 * 0x5af43d3d93803e603457fd5bf3 := by
    decide
  rw [wordBytes, hnum, beBytes_pow_mul 19 13]

theorem toNat_remainingPtr (h : start.toNat + 52 < 2 ^ 256) :
    (start + 32 + 20).toNat = start.toNat + 52 := by
  have h32 : (start + 32).toNat = start.toNat + 32 := toNat_add rfl (by omega)
  rw [toNat_add (k := 20) rfl (by omega), h32]

theorem toNat_metadataPtr (h : start.toNat + 65 < 2 ^ 256) :
    (metadataPtr start).toNat = start.toNat + 65 := by
  have h52 : (start + 32 + 20).toNat = start.toNat + 52 := toNat_remainingPtr (by omega)
  rw [metadataPtr, toNat_add (k := 13) rfl (by omega), h52]

theorem room_of_storeProxyCode (h : storeProxyCode gas m start targetContract = .ok m') :
    start.toNat + 84 ≤ gas.memory := by
  have hgas := gas.memory_lt
  obtain ⟨m₁, h₁, h⟩ := bind_eq_ok.mp h
  obtain ⟨m₂, -, h⟩ := bind_eq_ok.mp h
  obtain ⟨hroom, -⟩ := mstore_eq_ok.mp h₁
  obtain ⟨hend, -⟩ := mstore_eq_ok.mp h
  rw [toNat_remainingPtr (by omega)] at hend
  omega

/-- With room for them the three stores leave the proxy code at `start`, and in front
of it everything as it was. -/
theorem storeProxyCode_ok (hroom : start.toNat + 84 ≤ gas.memory) :
    ∃ m', storeProxyCode gas m start targetContract = .ok m' ∧
      Holds m' start.toNat (proxyCode targetContract) ∧
      ∀ p bs, p + bs.length ≤ start.toNat → Holds m p bs → Holds m' p bs := by
  have hgas := gas.memory_lt
  have h32 : (start + 32).toNat = start.toNat + 32 := toNat_add rfl (by omega)
  have h52 : (start + 32 + 20).toNat = start.toNat + 52 := toNat_remainingPtr (by omega)
  refine ⟨_, bind_eq_ok.mpr ⟨_, mstore_eq_ok.mpr ⟨by omega, rfl⟩, bind_eq_ok.mpr
    ⟨_, mstore_eq_ok.mpr ⟨by omega, rfl⟩, mstore_eq_ok.mpr ⟨by omega, rfl⟩⟩⟩, ?_, ?_⟩
  · rw [h32, h52, wordBytes_target, wordBytes_remainingCode]
    have h₁ := holds_write m start.toNat (wordBytes deployCode)
    have h₂ := h₁.write_front_behind (beBytes 20 targetContract.toNat) (List.replicate 12 0)
      (q := start.toNat + 32) (by simp)
    exact h₂.write_front_behind _ _ (by simp)
  · intro p bs hfront hbs
    exact ((hbs.write_of_disjoint (Or.inl hfront)).write_of_disjoint (Or.inl (by omega)))
      |>.write_of_disjoint (Or.inl (by omega))

-- ---------------------------------------------------------------------------
-- The copy loop
-- ---------------------------------------------------------------------------

/-- A word loaded at byte `i` of the metadata starts with its next bytes; behind the
end of the metadata it carries on with whatever stands there. -/
theorem wordBytes_metadata {k : Nat} (hmeta : Holds m base metadata) (hk : k ≤ metadata.length) :
    ∃ rest, wordBytes (wordOf (read m (base + k) 32)) = (metadata.drop k).take 32 ++ rest := by
  have hsplit : metadata = metadata.take k ++ ((metadata.drop k).take 32 ++
      (metadata.drop k).drop 32) := by
    rw [List.take_append_drop, List.take_append_drop]
  rw [hsplit] at hmeta
  have hhere := (holds_append.mp (holds_append.mp hmeta).2).1
  rw [List.length_take_of_le hk] at hhere
  rw [wordBytes_wordOf (length_read ..)]
  exact ⟨_, hhere.read_of_le (List.length_take_le ..)⟩

/-- The loop's invariant, `i` bytes into the metadata; `rounds` bounds the rounds that
are left. -/
theorem copyWords_ok (hptr : ptr.toNat = base + front.length)
    (hlength : length.toNat = metadata.length) (hbehind : offset.toNat + metadata.length ≤ base)
    (hroom : ptr.toNat + metadata.length + 32 ≤ gas.memory)
    (hrounds : metadata.length ≤ i.toNat + 32 * rounds)
    (hmeta : Holds m offset.toNat metadata)
    (hcopied : Holds m base (front ++ metadata.take i.toNat)) :
    ∃ m', copyWords gas ptr offset length rounds m i = .ok m' ∧
      Holds m' base (front ++ metadata) := by
  have hgas := gas.memory_lt
  induction rounds generalizing m i with
  | zero =>
    have hend : ¬ i < length := by
      rw [BitVec.lt_def]
      omega
    rw [List.take_of_length_le (by omega)] at hcopied
    exact ⟨m, if_neg hend, hcopied⟩
  | succ rounds ih =>
    rw [copyWords]
    by_cases hi : i < length
    · rw [if_pos hi]
      rw [BitVec.lt_def, hlength] at hi
      have hsrc : (offset + i).toNat = offset.toNat + i.toNat := toNat_add rfl (by omega)
      have hdst : (ptr + i).toNat = ptr.toNat + i.toNat := toNat_add rfl (by omega)
      have hnext : (i + 32).toNat = i.toNat + 32 := toNat_add rfl (by omega)
      obtain ⟨rest, hword⟩ := wordBytes_metadata hmeta hi.le
      rw [← hsrc] at hword
      rw [mload_eq_ok.mpr ⟨by omega, rfl⟩, ok_bind, mstore_eq_ok.mpr ⟨by omega, rfl⟩, ok_bind]
      apply ih
      · omega
      · exact hmeta.write_of_disjoint (Or.inl (by omega))
      · have hstore := hcopied.write_front_behind ((metadata.drop i.toNat).take 32) rest
          (q := (ptr + i).toNat) (by
            rw [hdst, hptr, List.length_append, List.length_take_of_le hi.le]
            omega)
        rw [hword, hnext, List.take_add, ← List.append_assoc]
        exact hstore
    · rw [if_neg hi]
      rw [BitVec.lt_def, hlength] at hi
      rw [List.take_of_length_le (by omega)] at hcopied
      exact ⟨m, rfl, hcopied⟩

/-- A loop that ends has had a round for every word. -/
theorem rounds_of_copyWords (hlength : length.toNat + 32 < 2 ^ 256)
    (h : copyWords gas ptr offset length rounds m i = .ok m') :
    length.toNat ≤ i.toNat + 32 * rounds := by
  induction rounds generalizing m i with
  | zero =>
    rw [copyWords] at h
    by_cases hi : i < length
    · rw [if_pos hi] at h
      cases h
    · rw [BitVec.lt_def] at hi
      omega
  | succ rounds ih =>
    rw [copyWords] at h
    by_cases hi : i < length
    · rw [if_pos hi] at h
      rw [BitVec.lt_def] at hi
      obtain ⟨word, -, h⟩ := bind_eq_ok.mp h
      obtain ⟨m₁, -, h⟩ := bind_eq_ok.mp h
      have hrest := ih h
      rw [toNat_add (k := 32) rfl (by omega)] at hrest
      omega
    · rw [BitVec.lt_def] at hi
      omega

-- ---------------------------------------------------------------------------
-- Behind the metadata
-- ---------------------------------------------------------------------------

theorem room_of_createProxy {size : Uint256} {c : Creation}
    (h : createProxy gas m start ptr size = .ok c) : ptr.toNat + 32 ≤ gas.memory := by
  obtain ⟨m₁, h, -⟩ := bind_eq_ok.mp h
  exact (mstore_eq_ok.mp h).1

theorem createProxy_ok {size : Uint256} (hsize : size.toNat = metadata.length)
    (hptr : ptr.toNat = start.toNat + 65 + metadata.length)
    (hroom : start.toNat + 97 + metadata.length ≤ gas.memory)
    (hholds : Holds m start.toNat (proxyCode targetContract ++ metadata)) :
    createProxy gas m start ptr size = .ok ⟨0, initCode targetContract metadata⟩ := by
  have hgas := gas.memory_lt
  have hend : (ptr + 32).toNat = ptr.toNat + 32 := toNat_add rfl (by omega)
  have htotal : (ptr + 32 - start).toNat = 97 + metadata.length := by
    rw [BitVec.toNat_sub_of_le (BitVec.le_def.mpr (by omega)), hend, hptr]
    omega
  have hcode : Holds (write m ptr.toNat (wordBytes size)) start.toNat
      (initCode targetContract metadata) := by
    rw [wordBytes, hsize, initCode]
    exact hholds.write_behind (by rw [hptr, List.length_append, length_proxyCode, Nat.add_assoc])
  rw [createProxy, mstore_eq_ok.mpr ⟨by omega, rfl⟩, ok_bind]
  refine create_eq_ok.mpr ⟨Or.inr (by omega), ?_⟩
  rw [htotal, hcode.read (length_initCode ..).symm]

-- ---------------------------------------------------------------------------
-- The constructors
-- ---------------------------------------------------------------------------

variable {c : Creation} {selector : Bytes}

theorem mload_start (hfree : Holds m 64 (wordBytes start)) (h : 96 ≤ gas.memory) :
    mload gas m 64 = .ok start :=
  mload_of_holds (a := 64) hfree h

/-- What the constructors' first instruction loads. -/
theorem eq_start {w : Uint256} (hfree : Holds m 64 (wordBytes start))
    (h : mload gas m 64 = .ok w) : 96 ≤ gas.memory ∧ w = start := by
  obtain ⟨hgas, -⟩ := mload_eq_ok.mp h
  have hw := (mload_start hfree hgas).symm.trans h
  exact ⟨hgas, (Except.ok.inj hw).symm⟩

theorem metaProxyFromMemory_ok (hfree : Holds m 64 (wordBytes start))
    (hlength : length.toNat = metadata.length) (hmeta : Holds m offset.toNat metadata)
    (hbehind : offset.toNat + metadata.length ≤ start.toNat)
    (hroom : start.toNat + 97 + metadata.length ≤ gas.memory)
    (hrounds : metadata.length ≤ 32 * gas.rounds) :
    metaProxyFromMemory gas m targetContract offset length =
      .ok ⟨0, initCode targetContract metadata⟩ := by
  have hgas := gas.memory_lt
  have hptr : (metadataPtr start).toNat = start.toNat + 65 := toNat_metadataPtr (by omega)
  have hend : (metadataPtr start + length).toNat = start.toNat + 65 + metadata.length := by
    rw [toNat_add hlength (by omega), hptr]
  have hfront : start.toNat + 84 ≤ gas.memory := by omega
  obtain ⟨m₁, hstore, hcode, hframe⟩ :
      ∃ m₁, storeProxyCode gas m start targetContract = .ok m₁ ∧ _ :=
    storeProxyCode_ok hfront
  have hnone : Holds m₁ start.toNat
      (proxyCode targetContract ++ metadata.take (0 : Uint256).toNat) := by simpa using hcode
  obtain ⟨m₂, hcopy, hholds⟩ := copyWords_ok (i := 0) (by rw [hptr, length_proxyCode]) hlength
    hbehind (show _ ≤ gas.memory by omega) (by simpa using hrounds) (hframe _ _ hbehind hmeta) hnone
  rw [metaProxyFromMemory, mload_start hfree (by omega), ok_bind, hstore, ok_bind, hcopy, ok_bind]
  exact createProxy_ok hlength hend hroom hholds

/-- Metadata that lies in front of the free-memory pointer: the constructor creates the
init code, whatever else memory holds, as far as the gas goes. -/
theorem metaProxyFromMemory_eq_ok (hfree : Holds m 64 (wordBytes start))
    (hlength : length.toNat = metadata.length) (hmeta : Holds m offset.toNat metadata)
    (hbehind : offset.toNat + metadata.length ≤ start.toNat) :
    metaProxyFromMemory gas m targetContract offset length = .ok c ↔
      (start.toNat + 97 + metadata.length ≤ gas.memory ∧ metadata.length ≤ 32 * gas.rounds) ∧
        c = ⟨0, initCode targetContract metadata⟩ := by
  have hgas := gas.memory_lt
  constructor
  · intro h
    obtain ⟨w, hload, hrest⟩ := bind_eq_ok.mp h
    obtain ⟨-, rfl⟩ := eq_start hfree hload
    obtain ⟨m₁, hstore, hrest⟩ := bind_eq_ok.mp hrest
    obtain ⟨m₂, hcopy, hrest⟩ := bind_eq_ok.mp hrest
    have hfront := room_of_storeProxyCode hstore
    have hrounds := rounds_of_copyWords (by omega) hcopy
    have hzero : (0 : Uint256).toNat = 0 := rfl
    rw [hlength, hzero, Nat.zero_add] at hrounds
    have hptr : (metadataPtr w).toNat = w.toNat + 65 := toNat_metadataPtr (by omega)
    have hroom := room_of_createProxy hrest
    rw [toNat_add hlength (by omega), hptr] at hroom
    refine ⟨⟨by omega, hrounds⟩, Except.ok.inj (h.symm.trans ?_)⟩
    exact metaProxyFromMemory_ok hfree hlength hmeta hbehind (by omega) hrounds
  · rintro ⟨⟨hroom, hrounds⟩, rfl⟩
    exact metaProxyFromMemory_ok hfree hlength hmeta hbehind hroom hrounds

/-- A `bytes` value: its length, then its bytes. -/
theorem metaProxyFromBytes_eq_ok {pointer : Uint256} (hfree : Holds m 64 (wordBytes start))
    (hmeta : Holds m pointer.toNat (beBytes 32 metadata.length ++ metadata))
    (hbehind : pointer.toNat + 32 + metadata.length ≤ start.toNat) :
    metaProxyFromBytes gas m targetContract pointer = .ok c ↔
      (start.toNat + 97 + metadata.length ≤ gas.memory ∧ metadata.length ≤ 32 * gas.rounds) ∧
        c = ⟨0, initCode targetContract metadata⟩ := by
  have hstart := start.isLt
  obtain ⟨length, hlength⟩ : ∃ length : Uint256, length.toNat = metadata.length :=
    exists_toNat (by omega)
  obtain ⟨hword, hbytes⟩ := holds_append.mp hmeta
  rw [← hlength] at hword
  have hptr : (pointer + 32).toNat = pointer.toNat + 32 := toNat_add rfl (by omega)
  rw [length_beBytes, ← hptr] at hbytes
  rw [← hptr] at hbehind
  have hmemory : metaProxyFromMemory gas m targetContract (pointer + 32) length = .ok c ↔ _ :=
    metaProxyFromMemory_eq_ok hfree hlength hbytes hbehind
  constructor
  · intro h
    obtain ⟨w, hload, h⟩ := bind_eq_ok.mp h
    obtain ⟨hgas, -⟩ := mload_eq_ok.mp hload
    cases (mload_of_holds hword hgas).symm.trans hload
    exact hmemory.mp h
  · intro h
    rw [metaProxyFromBytes, mload_of_holds hword (by omega), ok_bind]
    exact hmemory.mpr h

theorem toNat_calldatasize_sub (hselector : selector.length = 4)
    (hlength : 4 + metadata.length < 2 ^ 256) :
    (calldatasize (selector ++ metadata) - 4).toNat = metadata.length := by
  have hsize : (calldatasize (selector ++ metadata)).toNat = 4 + metadata.length := by
    rw [calldatasize, BitVec.toNat_ofNat, List.length_append, hselector, Nat.mod_eq_of_lt hlength]
  have hfour : (4 : Uint256).toNat = 4 := rfl
  rw [BitVec.toNat_sub_of_le (BitVec.le_def.mpr (by omega)), hsize, hfour]
  omega

theorem metaProxyFromCalldata_ok (hfree : Holds m 64 (wordBytes start))
    (hselector : selector.length = 4) (hroom : start.toNat + 97 + metadata.length ≤ gas.memory) :
    metaProxyFromCalldata gas m (selector ++ metadata) targetContract =
      .ok ⟨0, initCode targetContract metadata⟩ := by
  have hgas := gas.memory_lt
  have hsize : (calldatasize (selector ++ metadata) - 4).toNat = metadata.length :=
    toNat_calldatasize_sub hselector (by omega)
  have hptr : (metadataPtr start).toNat = start.toNat + 65 := toNat_metadataPtr (by omega)
  have hfront : start.toNat + 84 ≤ gas.memory := by omega
  obtain ⟨m₁, hstore, hcode, -⟩ :
      ∃ m₁, storeProxyCode gas m start targetContract = .ok m₁ ∧ _ :=
    storeProxyCode_ok hfront
  have hfour : (4 : Uint256).toNat = selector.length := hselector.symm
  have hdata : ((selector ++ metadata).drop (4 : Uint256).toNat).takeD
      (calldatasize (selector ++ metadata) - 4).toNat 0 = metadata := by
    rw [hsize, hfour, List.drop_left, List.takeD_eq_take 0 le_rfl, List.take_length]
  have hholds : Holds (write m₁ (metadataPtr start).toNat metadata) start.toNat
      (proxyCode targetContract ++ metadata) :=
    hcode.write_behind (by rw [hptr, length_proxyCode])
  rw [metaProxyFromCalldata, mload_start hfree (by omega), ok_bind, hstore, ok_bind,
    calldatacopy_eq_ok.mpr ⟨Or.inr (by omega), rfl⟩, ok_bind, hdata]
  exact createProxy_ok hsize (by rw [toNat_add hsize (by omega), hptr]) hroom hholds

theorem metaProxyFromCalldata_eq_ok (hfree : Holds m 64 (wordBytes start))
    (hselector : selector.length = 4) (hlength : 4 + metadata.length < 2 ^ 256) :
    metaProxyFromCalldata gas m (selector ++ metadata) targetContract = .ok c ↔
      start.toNat + 97 + metadata.length ≤ gas.memory ∧
        c = ⟨0, initCode targetContract metadata⟩ := by
  have hgas := gas.memory_lt
  have hsize := toNat_calldatasize_sub hselector hlength
  constructor
  · intro h
    obtain ⟨w, hload, hrest⟩ := bind_eq_ok.mp h
    obtain ⟨-, rfl⟩ := eq_start hfree hload
    obtain ⟨m₁, hstore, hrest⟩ := bind_eq_ok.mp hrest
    obtain ⟨m₂, hcopy, hrest⟩ := bind_eq_ok.mp hrest
    have hfront := room_of_storeProxyCode hstore
    have hptr : (metadataPtr w).toNat = w.toNat + 65 := toNat_metadataPtr (by omega)
    have hdata := (calldatacopy_eq_ok.mp hcopy).1
    have hroom := room_of_createProxy hrest
    rw [toNat_add hsize (by omega), hptr] at hroom
    refine ⟨by omega, Except.ok.inj (h.symm.trans ?_)⟩
    exact metaProxyFromCalldata_ok hfree hselector (by omega)
  · rintro ⟨hroom, rfl⟩
    exact metaProxyFromCalldata_ok hfree hselector hroom

/-- **All ways to a proxy create the same code.** For every target and every metadata,
whether it is a `bytes` value at `pointer`, lies anywhere at `offset`, or follows the
selector in calldata, and in every memory in which it lies in front of the free-memory
pointer: a constructor returns exactly if the gas reaches, and then it passes the init
code to `create`. -/
theorem constructors_create_initCode (gas : Gas) (targetContract : Address)
    (metadata selector : Bytes) (m₁ m₂ m₃ : Memory) (start₁ start₂ start₃ pointer offset : Uint256)
    (hfree₁ : Holds m₁ 64 (wordBytes start₁))
    (hmeta₁ : Holds m₁ pointer.toNat (beBytes 32 metadata.length ++ metadata))
    (hbehind₁ : pointer.toNat + 32 + metadata.length ≤ start₁.toNat)
    (hfree₂ : Holds m₂ 64 (wordBytes start₂))
    (hmeta₂ : Holds m₂ offset.toNat metadata)
    (hbehind₂ : offset.toNat + metadata.length ≤ start₂.toNat)
    (hfree₃ : Holds m₃ 64 (wordBytes start₃))
    (hselector : selector.length = 4) :
    (∀ c, metaProxyFromBytes gas m₁ targetContract pointer = .ok c ↔
      (start₁.toNat + 97 + metadata.length ≤ gas.memory ∧ metadata.length ≤ 32 * gas.rounds) ∧
        c = ⟨0, initCode targetContract metadata⟩) ∧
    (∀ c, metaProxyFromMemory gas m₂ targetContract offset (BitVec.ofNat 256 metadata.length) =
        .ok c ↔
      (start₂.toNat + 97 + metadata.length ≤ gas.memory ∧ metadata.length ≤ 32 * gas.rounds) ∧
        c = ⟨0, initCode targetContract metadata⟩) ∧
    (∀ c, metaProxyFromCalldata gas m₃ (selector ++ metadata) targetContract = .ok c ↔
      start₃.toNat + 97 + metadata.length ≤ gas.memory ∧
        c = ⟨0, initCode targetContract metadata⟩) := by
  have hstart := start₁.isLt
  have hlength : (BitVec.ofNat 256 metadata.length).toNat = metadata.length := by
    rw [BitVec.toNat_ofNat]
    exact Nat.mod_eq_of_lt (by omega)
  refine ⟨fun c => ?_, fun c => ?_, fun c => ?_⟩
  · exact metaProxyFromBytes_eq_ok hfree₁ hmeta₁ hbehind₁
  · exact metaProxyFromMemory_eq_ok hfree₂ hlength hmeta₂ hbehind₂
  · exact metaProxyFromCalldata_eq_ok hfree₃ hselector (by omega)

/-- Two bytes of metadata, in front of the free-memory pointer and in calldata. -/
theorem two_bytes_create_initCode :
    metaProxyFromBytes ⟨1000, 1, by decide⟩
        (write (write (fun _ => 7) 64 (wordBytes 200)) 128 (beBytes 32 2 ++ [1, 2])) 0xc0ffe 128 =
      .ok ⟨0, initCode 0xc0ffe [1, 2]⟩ ∧
    metaProxyFromMemory ⟨1000, 1, by decide⟩
        (write (write (fun _ => 7) 64 (wordBytes 200)) 128 [1, 2]) 0xc0ffe 128 2 =
      .ok ⟨0, initCode 0xc0ffe [1, 2]⟩ ∧
    metaProxyFromCalldata ⟨1000, 1, by decide⟩ (write (fun _ => 7) 64 (wordBytes 128))
        [9, 9, 9, 9, 1, 2] 0xc0ffe =
      .ok ⟨0, initCode 0xc0ffe [1, 2]⟩ := by
  obtain ⟨hbytes, hmemory, hcalldata⟩ := constructors_create_initCode ⟨1000, 1, by decide⟩ 0xc0ffe
    [1, 2] [9, 9, 9, 9]
    (write (write (fun _ => 7) 64 (wordBytes 200)) 128 (beBytes 32 2 ++ [1, 2]))
    (write (write (fun _ => 7) 64 (wordBytes 200)) 128 [1, 2])
    (write (fun _ => 7) 64 (wordBytes 128)) 200 200 128 128 128
    (by decide) (by decide) (by decide) (by decide) (by decide) (by decide) (by decide) rfl
  exact ⟨(hbytes _).mpr ⟨by decide, rfl⟩, (hmemory _).mpr ⟨by decide, rfl⟩,
    (hcalldata _).mpr ⟨by decide, rfl⟩⟩

end NeonTests.MetaProxy
