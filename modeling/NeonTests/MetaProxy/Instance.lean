import NeonTests.MetaProxy.Contract

/-!
# MetaProxy — the life of an instance

Proxies stand in front of each other: `createFromBytes` and `createFromCalldata` pass
`address(this)`, which is a proxy when they are called through one. The innermost has the contract
as its target, and its metadata are what both ways to the metadata find.

* `forwards_returned` / `forwards_of_enough` — what a call through proxies comes to;
* `metadata_of_proxies` — what both ways to the metadata find;
* `contractAt_keeps` — whatever is nested in a call, `init` has taken effect in an account once at
  most, and stored the value of its metadata;
* `someValue_of_run` — the stored values over any run of transactions.
-/

namespace NeonTests.MetaProxy

open Endian Fallible Solidity EvmMemory Scripts

open Evm (Outcome)

variable {chain : Chain} {w w' : World} {a c : Address} {metadata args calldata bytes : Bytes}
  {metadatas : List Bytes} {depth need n : Nat} {gas : GasTree} {message : Message}

-- ---------------------------------------------------------------------------
-- Calls through proxies
-- ---------------------------------------------------------------------------

/-- A call of the account `a` is passed on by proxies with these metadata, the outermost first, to
the code at `c`. -/
inductive Forwards (w : World) : Address → List Bytes → Address → Prop
  | here (a : Address) : Forwards w a [] a
  | proxy {a targetContract c : Address} {metadata : Bytes} {metadatas : List Bytes}
      {code : ByteCode} : w.code a = some (.bytes code) →
      code.bytes = deployedCode targetContract metadata → Forwards w targetContract metadatas c →
      Forwards w a (metadata :: metadatas) c

theorem Forwards.concat {p targetContract : Address} {code : ByteCode}
    (h : Forwards w a metadatas p) (hcode : w.code p = some (.bytes code))
    (hbytes : code.bytes = deployedCode targetContract metadata) :
    Forwards w a (metadatas ++ [metadata]) targetContract := by
  induction h with
  | here a => exact .proxy hcode hbytes (.here _)
  | proxy hfirst hfirstBytes _ ih => exact .proxy hfirst hfirstBytes (ih hcode)

/-- An account whose calls end in the contract. -/
def Instance (w : World) (a : Address) (metadatas : List Bytes) : Prop :=
  ∃ c, Forwards w a metadatas c ∧ w.code c = some .metaProxy

/-- The gas behind so many proxies. -/
def GasTree.inner (gas : GasTree) : Nat → GasTree
  | 0 => gas
  | n + 1 => (gas.child 0).inner n

def hostAt (chain : Chain) (depth : Nat) (gas : GasTree) (message : Message) (calldata : Bytes) :
    Host :=
  ⟨chain, gas, message, calldata, fun k => contractAt chain depth (gas.child k)⟩

theorem contractAt_metaProxy (hcode : w.code c = some .metaProxy) :
    (contractAt chain (depth + 1) gas c message).answer calldata w =
      (hostAt chain depth gas message calldata).answer w := by
  simp only [contractAt, ofWorld, hcode]
  rfl

theorem contractAt_bytes {code : ByteCode} (hcode : w.code a = some (.bytes code)) :
    (contractAt chain (depth + 1) gas a message).answer calldata w =
      (Evm.Contract.ofCode code.bytes code.length_lt (gas []).gas (gas []).gasReadings
        fun _ target => contractAt chain depth (gas.child 0) target message).answer calldata w := by
  simp only [contractAt, ofWorld, hcode]
  rfl

theorem contractAt_noCode (hcode : w.code a = none) :
    (contractAt chain (depth + 1) gas a message).answer calldata w = .returned [] w := by
  simp only [contractAt, ofWorld, hcode]
  rfl

/-- What returns through proxies was returned by the contract, which was called with all the
metadata behind the calldata. -/
theorem forwards_returned (h : Forwards w a metadatas c) (hc : w.code c = some .metaProxy)
    (hanswer : (contractAt chain depth gas a message).answer calldata w = .returned bytes w') :
    ∃ d, depth = metadatas.length + (d + 1) ∧
      (hostAt chain d (gas.inner metadatas.length) message (calldata ++ appended metadatas)).answer
        w = .returned bytes w' := by
  induction h generalizing depth gas calldata with
  | here a =>
    cases depth with
    | zero => exact absurd hanswer nofun
    | succ depth =>
      rw [contractAt_metaProxy hc] at hanswer
      refine ⟨depth, (Nat.zero_add _).symm, ?_⟩
      rw [appended, List.flatMap_nil, List.append_nil]
      exact hanswer
  | proxy hcode hbytes _ ih =>
    cases depth with
    | zero => exact absurd hanswer nofun
    | succ depth =>
      rw [contractAt_bytes hcode] at hanswer
      obtain ⟨d, rfl, hinner⟩ := ih hc (proxy_returned hbytes hanswer).2
      rw [List.append_assoc, ← appended_cons] at hinner
      exact ⟨d, by rw [List.length_cons]; omega, hinner⟩

/-- Gas for a call through so many proxies, and as many nested calls. -/
def Enough (gas : GasTree) (n need : Nat) : Prop :=
  ∀ k ≤ n, need ≤ (gas.inner k []).gas.memory ∧ 31 ≤ (gas.inner k []).gas.rounds ∧
    (gas.inner k []).reaches = true

theorem Enough.child (h : Enough gas (n + 1) need) : Enough (gas.child 0) n need :=
  fun k hk => h (k + 1) (Nat.succ_le_succ hk)

theorem Enough.here (h : Enough gas n need) :
    need ≤ (gas []).gas.memory ∧ 31 ≤ (gas []).gas.rounds ∧ (gas []).reaches = true :=
  h 0 (Nat.zero_le n)

theorem forwards_of_enough (h : Forwards w a metadatas c) (hc : w.code c = some .metaProxy)
    (henough : Enough gas metadatas.length need)
    (hinput : calldata.length + (appended metadatas).length ≤ need) (hbytes : bytes.length ≤ need)
    (hanswer : (hostAt chain depth (gas.inner metadatas.length) message
      (calldata ++ appended metadatas)).answer w = .returned bytes w') :
    (contractAt chain (metadatas.length + (depth + 1)) gas a message).answer calldata w =
      .returned bytes w' := by
  induction h generalizing gas calldata with
  | here a =>
    rw [appended, List.flatMap_nil, List.append_nil] at hanswer
    rw [List.length_nil, Nat.zero_add, contractAt_metaProxy hc]
    exact hanswer
  | @proxy a targetContract c metadata metadatas code hcode hcodeBytes _ ih =>
    obtain ⟨hmemory, hrounds, -⟩ := henough.here
    have htail := length_metadataTail metadata
    rw [appended_cons, List.length_append] at hinput
    have hdepth : (metadata :: metadatas).length + (depth + 1) =
        metadatas.length + (depth + 1) + 1 := by
      rw [List.length_cons]
      omega
    rw [appended_cons, ← List.append_assoc] at hanswer
    rw [hdepth, contractAt_bytes hcode]
    refine proxy_of_returned hcodeBytes _ (by omega) (by omega) hrounds ?_
    refine ih hc henough.child ?_ hanswer
    rw [List.length_append]
    omega

-- ---------------------------------------------------------------------------
-- A call of the contract
-- ---------------------------------------------------------------------------

theorem answer_eq_returned {h : Host} :
    h.answer w = .returned bytes w' ↔
      (h.own.reaches = true ∧ h.calldata.length < 2 ^ 64 ∧ bytes.length ≤ h.own.gas.memory) ∧
        exec h.dispatch w = (.ok bytes, w') := by
  have hbounded : ∀ outcome, h.bounded outcome = .returned bytes w' ↔
      bytes.length ≤ h.own.gas.memory ∧ outcome = .returned bytes w' := by
    intro outcome
    unfold Host.bounded
    constructor
    · intro heq
      split at heq
      · next hle =>
        subst heq
        exact ⟨hle, rfl⟩
      · exact absurd heq nofun
    · rintro ⟨hle, rfl⟩
      exact if_pos hle
  unfold Host.answer
  constructor
  · intro heq
    split at heq
    · next hpaid =>
      split at heq
      · next data w₁ hrun =>
        obtain ⟨hle, hout⟩ := (hbounded _).mp heq
        obtain ⟨rfl, rfl⟩ := Outcome.returned.inj hout
        exact ⟨⟨hpaid.1, hpaid.2, hle⟩, hrun⟩
      · exact absurd ((hbounded _).mp heq).2 nofun
      · exact absurd heq nofun
    · exact absurd heq nofun
  · rintro ⟨⟨hreaches, hshort, hle⟩, hrun⟩
    rw [if_pos ⟨hreaches, hshort⟩, hrun]
    exact (hbounded _).mpr ⟨hle, rfl⟩

theorem dispatch_eq {h : Host} {f : Function} (hcalldata : h.calldata = f.selector ++ args) :
    h.dispatch = h.run f := by
  rw [Host.dispatch, hcalldata, functionOf_selector]

theorem exec_requires_bind {α : Type} {p : Prop} [Decidable p] {x : Body α} {r : α} :
    exec (requires p >>= fun _ => x) w = (.ok r, w') ↔ p ∧ exec x w = (.ok r, w') := by
  unfold requires ensure
  by_cases hp : p
  · rw [if_pos hp, exec_bind]
    exact ⟨fun hr => ⟨hp, hr⟩, fun hr => hr.2⟩
  · rw [if_neg hp, exec_bind_eq_ok]
    exact iff_of_false (fun ⟨_, _, hfail, _⟩ => exec_fail_ne_ok hfail) fun hr => hp hr.1

theorem exec_assembly_eq_ok {α : Type} {x : Except Halt α} {r : α} :
    exec (assembly x) w = (.ok r, w') ↔ x = .ok r ∧ w' = w := by
  cases x with
  | ok a => rw [assembly, exec_pure_eq_ok, Except.ok.injEq]
  | error e =>
    cases e
    exact iff_of_false exec_fail_ne_ok fun h => absurd h.1 nofun

theorem exec_decoded_eq_ok {α : Type} {x : Option α} {r : α} :
    exec (decoded x) w = (.ok r, w') ↔ x = some r ∧ w' = w := by
  cases x with
  | some a => rw [decoded, exec_pure_eq_ok, Option.some.injEq]
  | none => exact iff_of_false exec_fail_ne_ok fun h => absurd h.1 nofun

/-- `getMetadataViaCall` as a call. -/
theorem exec_viaCall {h : Host}
    (hcalldata : h.calldata = Function.getMetadataViaCall.selector ++ args) :
    exec h.dispatch w = (.ok bytes, w') ↔ h.message.value = 0 ∧
      getMetadataViaCall h.own.gas (Host.freeFrom 128) h.calldata = .ok bytes ∧ w' = w := by
  rw [dispatch_eq hcalldata]
  show exec (requires (h.message.value = 0) >>= fun _ => h.getMetadataViaCall) w = _ ↔ _
  rw [exec_requires_bind, Host.getMetadataViaCall, exec_assembly_eq_ok]

-- ---------------------------------------------------------------------------
-- The metadata
-- ---------------------------------------------------------------------------

/-- What a self-call of `getMetadataViaCall` finds: without a proxy, nothing. -/
theorem viaCall_returned (hinstance : Instance w a metadatas)
    (h : (contractAt chain depth gas a message).answer
      (Function.getMetadataViaCall.selector ++ args) w = .returned bytes w') :
    (∀ front metadata, metadatas = front ++ [metadata] → bytes = metadata) ∧
      (metadatas = [] → args = [] → bytes = []) ∧ w' = w := by
  obtain ⟨c, hforwards, hc⟩ := hinstance
  obtain ⟨d, -, hanswer⟩ := forwards_returned hforwards hc h
  obtain ⟨⟨-, hshort, -⟩, hrun⟩ := answer_eq_returned.mp hanswer
  change (Function.getMetadataViaCall.selector ++ args ++ appended metadatas).length < 2 ^ 64
    at hshort
  obtain ⟨-, hfound, rfl⟩ := (exec_viaCall (List.append_assoc _ args _)).mp hrun
  change getMetadataViaCall _ _
    (Function.getMetadataViaCall.selector ++ args ++ appended metadatas) = _ at hfound
  refine ⟨?_, ?_, rfl⟩
  · rintro front metadata rfl
    rw [appended_concat, ← List.append_assoc] at hfound hshort
    exact ((getMetadataViaCall_eq_ok (by omega)).mp hfound).2
  · rintro rfl rfl
    have hlen : (Function.getMetadataViaCall.selector ++ [] ++ appended []).length < 32 := by
      decide
    exact getMetadataViaCall_short hlen hfound

theorem viaCall_of_enough (hinstance : Instance w a (metadatas ++ [metadata]))
    (hvalue : message.value = 0)
    (hneed : (Function.getMetadataViaCall.selector ++ args).length +
      (appended (metadatas ++ [metadata])).length ≤ need)
    (henough : Enough gas (metadatas.length + 1) need) :
    (contractAt chain (metadatas.length + 1 + (depth + 1)) gas a message).answer
      (Function.getMetadataViaCall.selector ++ args) w = .returned metadata w := by
  obtain ⟨c, hforwards, hc⟩ := hinstance
  have hn : (metadatas ++ [metadata]).length = metadatas.length + 1 := by
    rw [List.length_append, List.length_singleton]
  have htail : metadata.length + 32 ≤ (appended (metadatas ++ [metadata])).length := by
    rw [appended_concat, List.length_append, length_metadataTail]
    omega
  rw [← hn] at henough ⊢
  obtain ⟨hmemory, -, hreaches⟩ := henough (metadatas ++ [metadata]).length le_rfl
  have hgas := (gas.inner (metadatas ++ [metadata]).length []).gas.memory_lt
  refine forwards_of_enough hforwards hc henough hneed (by omega) (answer_eq_returned.mpr
    ⟨⟨hreaches, ?_, ?_⟩, (exec_viaCall (List.append_assoc _ args _)).mpr ⟨hvalue, ?_, rfl⟩⟩)
  · show (_ ++ _ ++ _ : Bytes).length < 2 ^ 64
    rw [List.length_append]
    omega
  · exact le_trans (by omega) hmemory
  · show getMetadataViaCall _ _ (_ ++ _ ++ _) = _
    rw [appended_concat, ← List.append_assoc]
    refine (getMetadataViaCall_eq_ok ?_).mpr ⟨le_trans (by omega) hmemory, rfl⟩
    rw [appended_concat] at hneed
    simp only [List.length_append] at hneed ⊢
    omega

/-- **Both ways to the metadata.** Through any number of proxies: if a call of
`getMetadataViaCall` returns, its answer is the metadata of the innermost proxy, whatever
stands behind the selector; with enough gas it does return; and in the same calldata
`getMetadataWithoutCall` finds the same bytes, exactly if its memory reaches. -/
theorem metadata_of_proxies (chain : Chain) (w : World) (a : Address) (metadatas : List Bytes)
    (metadata : Bytes) (hinstance : Instance w a (metadatas ++ [metadata])) (args : Bytes)
    (message : Message) :
    (∀ depth gas bytes w', (contractAt chain depth gas a message).answer
        (Function.getMetadataViaCall.selector ++ args) w = .returned bytes w' →
      bytes = metadata ∧ w' = w) ∧
    (∀ depth gas need, message.value = 0 →
      (Function.getMetadataViaCall.selector ++ args).length +
        (appended (metadatas ++ [metadata])).length ≤ need →
      Enough gas (metadatas.length + 1) need →
        (contractAt chain (metadatas.length + 1 + (depth + 1)) gas a message).answer
          (Function.getMetadataViaCall.selector ++ args) w = .returned metadata w) ∧
    ∀ gas m (start : Uint256) calldata, Holds m 64 (wordBytes start) → 96 ≤ start.toNat →
      (calldata ++ appended (metadatas ++ [metadata])).length < 2 ^ 256 →
        ((∃ r, getMetadataWithoutCall gas m
            (calldata ++ appended (metadatas ++ [metadata])) = .ok r) ↔
          start.toNat + 32 + metadata.length ≤ gas.memory) ∧
        ∀ m' data, getMetadataWithoutCall gas m
            (calldata ++ appended (metadatas ++ [metadata])) = .ok (m', data) →
          Holds m' data.toNat (beBytes 32 metadata.length ++ metadata) := by
  refine ⟨?_, ?_, ?_⟩
  · intro depth gas bytes w' h
    obtain ⟨hfound, -, hw⟩ := viaCall_returned hinstance h
    exact ⟨hfound metadatas metadata rfl, hw⟩
  · intro depth gas need hvalue hneed henough
    exact viaCall_of_enough hinstance hvalue hneed henough
  · intro gas m start calldata hfree hstart hlt
    rw [appended_concat, ← List.append_assoc] at hlt ⊢
    constructor
    · constructor
      · rintro ⟨r, hok⟩
        exact room_of_getMetadataWithoutCall hfree hlt hok
      · intro hroom
        obtain ⟨m', hok, -⟩ := getMetadataWithoutCall_ok hfree hstart hlt hroom
        exact ⟨_, hok⟩
    · intro m' data hok
      have hroom := room_of_getMetadataWithoutCall hfree hlt hok
      obtain ⟨m₁, hok₁, hholds, -⟩ := getMetadataWithoutCall_ok hfree hstart hlt hroom
      cases hok₁.symm.trans hok
      exact hholds

-- ---------------------------------------------------------------------------
-- init
-- ---------------------------------------------------------------------------

theorem exec_rawCall {h : Host} (k : Nat) (target : Address) (value : Uint256) (data : Bytes) :
    exec (h.rawCall k target value data) w =
      match (h.contract k target ⟨target, h.this, value⟩).answer data w with
      | .returned bytes w' => (.ok (true, bytes), w')
      | outcome => (.ok (false, outcome.data), w) := rfl

theorem exec_call_eq_ok {h : Host} {k : Nat} {target : Address} {value : Uint256}
    {data : Bytes} :
    exec (h.call k target value data) w = (.ok bytes, w') ↔
      (h.contract k target ⟨target, h.this, value⟩).answer data w = .returned bytes w' := by
  rw [Host.call, exec_bind, exec_rawCall]
  split
  · next hcall =>
    split at hcall
    · next data' w₁ houtcome =>
      cases hcall
      rw [houtcome]
      constructor
      · intro heq
        cases heq
        rfl
      · intro heq
        cases heq
        rfl
    · next outcome hfailed =>
      cases hcall
      exact ⟨nofun, fun heq => absurd heq (hfailed _ _)⟩
  · next hcall =>
    split at hcall
    · exact absurd hcall nofun
    · exact absurd hcall nofun

theorem exec_metadataOf_eq_ok {h : Host} {k : Nat} {target : Address} {f : Function}
    {md : Metadata} :
    exec (h.metadataOf k target f) w = (.ok md, w') ↔
      ∃ bytes, (h.contract k target ⟨target, h.this, 0⟩).answer f.selector w =
        .returned bytes w' ∧ decode bytes = some md := by
  rw [Host.metadataOf, exec_bind_eq_ok]
  constructor
  · rintro ⟨bytes, w₁, hcall, hdecode⟩
    obtain ⟨hfound, rfl⟩ := exec_decoded_eq_ok.mp hdecode
    exact ⟨bytes, exec_call_eq_ok.mp hcall, hfound⟩
  · rintro ⟨bytes, hcall, hdecode⟩
    exact ⟨bytes, w', exec_call_eq_ok.mpr hcall, exec_decoded_eq_ok.mpr ⟨hdecode, rfl⟩⟩

/-- The world behind `init`. -/
def World.initialise (w : World) (a : Address) (b : Uint256) : World :=
  { w with someValue := Function.update w.someValue a b, inits := w.inits ++ [a] }

theorem exec_init_eq_ok {h : Host} {u : Unit} :
    exec h.init w = (.ok u, w') ↔ w.someValue h.this = 0 ∧ ∃ bytes w₁ md,
      (h.contract 0 h.this ⟨h.this, h.this, 0⟩).answer Function.getMetadataViaCall.selector w =
        .returned bytes w₁ ∧ decode bytes = some md ∧ 0 < md.b ∧
          w' = w₁.initialise h.this md.b := by
  rw [Host.init, exec_bind_eq_ok]
  constructor
  · rintro ⟨_, _, hvalue, hrest⟩
    cases hvalue
    obtain ⟨hzero, hrest⟩ := exec_requires_bind.mp hrest
    obtain ⟨md, w₁, hmetadata, hrest⟩ := exec_bind_eq_ok.mp hrest
    obtain ⟨hpos, hrest⟩ := exec_requires_bind.mp hrest
    obtain ⟨bytes, hcall, hdecode⟩ := exec_metadataOf_eq_ok.mp hmetadata
    cases hrest
    exact ⟨hzero, bytes, w₁, md, hcall, hdecode, hpos, rfl⟩
  · rintro ⟨hzero, bytes, w₁, md, hcall, hdecode, hpos, rfl⟩
    refine ⟨w.someValue h.this, w, rfl, exec_requires_bind.mpr ⟨hzero, ?_⟩⟩
    exact exec_bind_eq_ok.mpr ⟨md, w₁, exec_metadataOf_eq_ok.mpr ⟨bytes, hcall, hdecode⟩,
      exec_requires_bind.mpr ⟨hpos, rfl⟩⟩

-- ---------------------------------------------------------------------------
-- What calls keep
-- ---------------------------------------------------------------------------

/-- No call of `init` has taken effect in the account. -/
def Untouched (w : World) (a : Address) : Prop := w.someValue a = 0 ∧ w.inits.count a = 0

/-- One has, and stored the value of the innermost metadata. -/
def Initialised (w : World) (a : Address) : Prop :=
  ∃ metadatas metadata md, Instance w a (metadatas ++ [metadata]) ∧ decode metadata = some md ∧
    0 < md.b ∧ w.someValue a = md.b ∧ w.inits.count a = 1

structure Inv (w : World) : Prop where
  proxies : ∀ {a code}, w.code a = some (.bytes code) →
    ∃ targetContract metadata, code.bytes = deployedCode targetContract metadata
  values : ∀ a, Untouched w a ∨ Initialised w a

/-- Accounts keep their code, and a value that is not zero. -/
structure Evolves (w w' : World) : Prop where
  code : ∀ {a c}, w.code a = some c → w'.code a = some c
  someValue : ∀ {a}, w.someValue a ≠ 0 → w'.someValue a = w.someValue a

theorem Evolves.refl (w : World) : Evolves w w := ⟨id, fun _ => rfl⟩

theorem Evolves.trans {w₁ w₂ w₃ : World} (h : Evolves w₁ w₂) (h' : Evolves w₂ w₃) :
    Evolves w₁ w₃ where
  code hcode := h'.code (h.code hcode)
  someValue hvalue := by
    have hfirst := h.someValue hvalue
    rw [← hfirst] at hvalue ⊢
    exact h'.someValue hvalue

theorem Forwards.evolves (h : Forwards w a metadatas c) (hw : Evolves w w') :
    Forwards w' a metadatas c := by
  induction h with
  | here a => exact .here a
  | proxy hcode hbytes _ ih => exact .proxy (hw.code hcode) hbytes ih

theorem Instance.evolves (h : Instance w a metadatas) (hw : Evolves w w') :
    Instance w' a metadatas := by
  obtain ⟨c, hforwards, hc⟩ := h
  exact ⟨c, hforwards.evolves hw, hw.code hc⟩

/-- An account in which nothing happened. -/
theorem values_congr (h : Untouched w a ∨ Initialised w a) (hw : Evolves w w')
    (hvalue : w'.someValue a = w.someValue a) (hcount : w'.inits.count a = w.inits.count a) :
    Untouched w' a ∨ Initialised w' a := by
  obtain ⟨hzero, hnone⟩ | ⟨metadatas, metadata, md, hinstance, hdecode, hpos, hmd, hone⟩ := h
  · exact Or.inl ⟨by rw [hvalue, hzero], by rw [hcount, hnone]⟩
  · exact Or.inr ⟨metadatas, metadata, md, hinstance.evolves hw, hdecode, hpos,
      by rw [hvalue, hmd], by rw [hcount, hone]⟩

/-- What a step adds besides code does not matter. -/
theorem Inv.congr (h : Inv w) (hw : Evolves w w') (hvalue : w'.someValue = w.someValue)
    (hinits : w'.inits = w.inits)
    (hproxies : ∀ {a code}, w'.code a = some (.bytes code) →
      ∃ targetContract metadata, code.bytes = deployedCode targetContract metadata) : Inv w' where
  proxies := hproxies
  values a := values_congr (h.values a) hw (congrFun hvalue a) (by rw [hinits])

/-- `init` in an account that forwards to the contract. -/
theorem Inv.initialise {md : Metadata} (h : Inv w) (hzero : w.someValue a = 0)
    (hinstance : Instance w a (metadatas ++ [metadata])) (hdecode : decode metadata = some md)
    (hpos : 0 < md.b) : Inv (w.initialise a md.b) ∧ Evolves w (w.initialise a md.b) := by
  have hevolves : Evolves w (w.initialise a md.b) := by
    refine ⟨id, fun {a'} hvalue => Function.update_of_ne ?_ _ _⟩
    rintro rfl
    exact hvalue hzero
  refine ⟨⟨h.proxies, fun a' => ?_⟩, hevolves⟩
  have hcount' : (w.initialise a md.b).inits.count a' =
      w.inits.count a' + if a = a' then 1 else 0 := by
    show (w.inits ++ [a]).count a' = _
    rw [List.count_append, List.count_singleton]
    simp only [beq_iff_eq]
  by_cases ha : a = a'
  · subst ha
    have hcount : w.inits.count a = 0 := by
      obtain ⟨-, hcount⟩ | ⟨_, _, md', _, _, hpos', hvalue', -⟩ := h.values a
      · exact hcount
      · rw [← hvalue', hzero] at hpos'
        exact absurd hpos' (BitVec.lt_irrefl 0)
    refine Or.inr ⟨metadatas, metadata, md, hinstance.evolves hevolves, hdecode, hpos,
      Function.update_self .., ?_⟩
    rw [hcount', hcount, if_pos rfl]
  · rw [if_neg ha, Nat.add_zero] at hcount'
    exact values_congr (h.values a') hevolves (Function.update_of_ne (Ne.symm ha) ..) hcount'

-- ---------------------------------------------------------------------------
-- Creations
-- ---------------------------------------------------------------------------

theorem ByteCode.ofOutcome_eq_some {outcome : Outcome World} {deployed : ByteCode}
    (hlt : outcome.data.length < 2 ^ 64) :
    ByteCode.ofOutcome outcome hlt = some (deployed, w') ↔
      outcome = .returned deployed.bytes w' := by
  cases outcome with
  | returned data w₁ =>
    constructor
    · intro h
      cases h
      rfl
    · intro h
      cases h
      rfl
  | reverted data => exact ⟨nofun, nofun⟩
  | failed e => exact ⟨nofun, nofun⟩

theorem runInitCode_proxy {callGas : CallGas} {callee : Address → Evm.Contract World}
    {targetContract : Address} {deployed : ByteCode}
    (h : runInitCode callGas callee (initCode targetContract metadata) w = some (deployed, w')) :
    deployed.bytes = deployedCode targetContract metadata ∧ w' = w := by
  unfold runInitCode at h
  split at h
  · next hcode =>
    have hends := (initCode_deploys (Evm.Contract.inside (initCode targetContract metadata) hcode
      (fun _ target => callee target) [] (Nat.two_pow_pos 64)) targetContract metadata rfl
      callGas.gasReadings w callGas.gas).1
    have hcall := (ByteCode.ofOutcome_eq_some _).mp h
    obtain hgas | hreturned := hends
    · exact absurd (hcall.symm.trans hgas) nofun
    · obtain ⟨hbytes, hw⟩ := Outcome.returned.inj (hcall.symm.trans hreturned)
      exact ⟨hbytes, hw⟩
  · exact absurd h nofun

/-- Creating a proxy, whatever comes of it. -/
theorem createAccount_keeps (callGas : CallGas) (callee : Address → Address → Evm.Contract World)
    (creator targetContract : Address) (metadata : Bytes) (h : Inv w) :
    let created :=
      (createAccount chain callGas callee creator (initCode targetContract metadata) w).2
    Inv created ∧ Evolves w created := by
  intro created
  have hnonce (nonce : Address → Nat) :
      Inv { w with nonce := nonce } ∧ Evolves w { w with nonce := nonce } :=
    ⟨h.congr ⟨id, fun _ => rfl⟩ rfl rfl h.proxies, id, fun _ => rfl⟩
  unfold created createAccount
  simp only
  split
  · exact hnonce _
  · next hfree =>
    split
    · next deployed w₁ hrun =>
      obtain ⟨hbytes, rfl⟩ := runInitCode_proxy hrun
      have hevolves : Evolves w { w with
          nonce := Function.update w.nonce creator (w.nonce creator + 1)
          code := Function.update w.code (chain.createAddress creator (w.nonce creator))
            (some (.bytes deployed)) } := by
        refine ⟨fun {a c} hcode => ?_, fun _ => rfl⟩
        have hne : a ≠ chain.createAddress creator (w.nonce creator) := by
          rintro rfl
          rw [hcode] at hfree
          exact hfree rfl
        exact (Function.update_of_ne hne ..).trans hcode
      refine ⟨h.congr hevolves rfl rfl fun {a code} hcode => ?_, hevolves⟩
      by_cases ha : a = chain.createAddress creator (w.nonce creator)
      · subst ha
        have hcode' := (Function.update_self ..).symm.trans hcode
        cases hcode'
        exact ⟨targetContract, metadata, hbytes⟩
      · exact h.proxies ((Function.update_of_ne ha ..).symm.trans hcode)
    · exact hnonce _

-- ---------------------------------------------------------------------------
-- The functions of the contract
-- ---------------------------------------------------------------------------

def Kept (w₀ w : World) : Prop := Inv w ∧ Evolves w₀ w

/-- What a function that returns leaves; one that does not is undone. -/
def Keeps {α : Type} (w₀ : World) (x : Body α) : Prop :=
  Triple (Kept w₀) x (fun _ => Kept w₀) fun _ => True

/-- What the calls nested in a call may be taken to do. -/
structure Host.Sound (h : Host) : Prop where
  keeps : ∀ {k metadatas c message calldata w bytes w'}, Inv w →
    Forwards w message.this metadatas c →
      (h.contract k c message).answer calldata w = .returned bytes w' → Kept w w'
  metadata : ∀ {k a metadatas message w bytes w'}, Instance w a metadatas →
    (h.contract k a message).answer Function.getMetadataViaCall.selector w = .returned bytes w' →
      (∀ front metadata, metadatas = front ++ [metadata] → bytes = metadata) ∧
        (metadatas = [] → bytes = []) ∧ w' = w

variable {w₀ : World} {h : Host} {α β : Type}

theorem Kept.refl (hw : Inv w) : Kept w w := ⟨hw, .refl w⟩

theorem Kept.trans (h : Kept w₀ w) (h' : Kept w w') : Kept w₀ w' := ⟨h'.1, h.2.trans h'.2⟩

theorem keeps_pure (a : α) : Keeps w₀ (pure a : Body α) := Triple.pure fun _ hw => hw

theorem keeps_fail (e : Failure) : Keeps w₀ (fail e : Body α) := Triple.fail fun _ _ => trivial

theorem Keeps.bind {x : Body α} {f : α → Body β} (hx : Keeps w₀ x) (hf : ∀ a, Keeps w₀ (f a)) :
    Keeps w₀ (x >>= f) := Triple.bind (fun _ => Kept w₀) hx hf

theorem Keeps.ite {p : Prop} [Decidable p] {x y : Body α} (hx : Keeps w₀ x) (hy : Keeps w₀ y) :
    Keeps w₀ (if p then x else y) := Triple.ite (fun _ => hx) fun _ => hy

theorem keeps_requires (p : Prop) [Decidable p] : Keeps w₀ (requires p) :=
  Keeps.ite (keeps_pure ()) (keeps_fail _)

theorem keeps_read (f : World → α) : Keeps w₀ (read f : Body α) := Triple.read fun _ hw => hw

theorem keeps_decoded (x : Option α) : Keeps w₀ (decoded x) := by
  cases x with
  | some a => exact keeps_pure a
  | none => exact keeps_fail _

theorem keeps_assembly (x : Except Halt α) : Keeps w₀ (assembly x) := by
  cases x with
  | ok a => exact keeps_pure a
  | error e => exact keeps_fail _

theorem keeps_sum (a : Address) (b : Uint256) : Keeps w₀ (Host.sum a b) := by
  unfold Host.sum
  split
  · exact keeps_pure _
  · exact keeps_fail _

theorem keeps_emit (event : Event) : Keeps w₀ (h.emit event) := by
  refine Triple.write fun w hw => hw.trans ?_
  have hevolves : Evolves w { w with log := w.log ++ [(h.this, event)] } := ⟨id, fun _ => rfl⟩
  exact ⟨hw.1.congr hevolves rfl rfl hw.1.proxies, hevolves⟩

theorem keeps_rawCall (hs : h.Sound) (k : Nat) (target : Address) (value : Uint256)
    (data : Bytes) : Keeps w₀ (h.rawCall k target value data) := by
  intro w hw
  rw [exec_rawCall]
  split
  · next bytes w' hcall => exact hw.trans (hs.keeps hw.1 (.here target) hcall)
  · exact hw

theorem keeps_call (hs : h.Sound) (k : Nat) (target : Address) (value : Uint256) (data : Bytes) :
    Keeps w₀ (h.call k target value data) :=
  (keeps_rawCall hs k target value data).bind fun _ => .ite (keeps_pure _) (keeps_fail _)

theorem keeps_metadataOf (hs : h.Sound) (k : Nat) (target : Address) (f : Function) :
    Keeps w₀ (h.metadataOf k target f) :=
  (keeps_call hs k target 0 _).bind fun _ => keeps_decoded _

theorem keeps_getMetadataWithoutCall (p : Nat) : Keeps w₀ (h.getMetadataWithoutCall p) :=
  (keeps_assembly _).bind fun _ => keeps_decoded _

theorem keeps_create (k : Nat) (targetContract : Address) (metadata : Bytes) :
    Keeps w₀ (h.create k (initCode targetContract metadata)) := by
  intro w hw
  exact hw.trans (createAccount_keeps _ _ _ targetContract metadata hw.1)

/-- `init` in an account that forwards to the contract. -/
theorem keeps_init (hs : h.Sound) (hinstance : Instance w₀ h.this metadatas) :
    Keeps w₀ h.init := by
  intro w hw
  rcases hrun : exec h.init w with ⟨e | u, w'⟩
  · trivial
  · obtain ⟨hzero, bytes, w₁, md, hcall, hdecode, hpos, rfl⟩ := exec_init_eq_ok.mp hrun
    have hinstance' := hinstance.evolves hw.2
    obtain ⟨hfound, hnone, rfl⟩ := hs.metadata hinstance' hcall
    obtain rfl | ⟨front, metadata, rfl⟩ := metadatas.eq_nil_or_concat
    · rw [hnone rfl] at hdecode
      exact absurd hdecode nofun
    · rw [List.concat_eq_append] at hfound hinstance'
      rw [hfound front metadata rfl] at hdecode
      exact hw.trans (hw.1.initialise hzero hinstance' hdecode hpos)

theorem Keeps.decoded {x : Option α} {f : α → Body β} (hf : ∀ a, x = some a → Keeps w₀ (f a)) :
    Keeps w₀ (decoded x >>= f) := by
  cases x with
  | some a => exact hf a rfl
  | none => exact keeps_fail _

theorem Keeps.assembly {x : Except Halt α} {f : α → Body β} (hf : ∀ a, x = .ok a → Keeps w₀ (f a)) :
    Keeps w₀ (assembly x >>= f) := by
  cases x with
  | ok a => exact hf a rfl
  | error e => exact keeps_fail _

/-- A new proxy, made from the init code of the factory. -/
theorem keeps_createInitialised (hs : h.Sound) {creation : Except Halt Creation}
    (hcreation : ∀ c, creation = .ok c → ∃ metadata, c.initCode = initCode h.this metadata) :
    Keeps w₀ (h.createInitialised creation) := by
  refine Keeps.assembly fun c hc => ?_
  obtain ⟨metadata, hcode⟩ := hcreation c hc
  rw [hcode]
  refine (keeps_create 0 h.this metadata).bind fun proxy => (keeps_requires _).bind fun _ => ?_
  refine ((keeps_read _).bind fun _ => keeps_requires _).bind fun _ => ?_
  exact (keeps_call hs 1 proxy _ _).bind fun _ => keeps_pure _

theorem holds_freeFrom (p : Nat) :
    Holds (Host.freeFrom p) 64 (wordBytes (BitVec.ofNat 256 p)) := holds_write ..

theorem length_encodeBytes (bs : Bytes) :
    32 + bs.length ≤ (encodeBytes bs).length ∧ (encodeBytes bs).length < 64 + bs.length := by
  rw [encodeBytes, List.length_append, List.length_append, length_beBytes, List.length_replicate]
  omega

theorem keeps_createFromBytes (hs : h.Sound) {md : Metadata} (hc : md.c.length < 2 ^ 64) :
    Keeps w₀ (h.createFromBytes md) := by
  refine keeps_createInitialised hs fun c hcreated => ⟨encode md, ?_⟩
  have hlen := length_encode md
  obtain ⟨hlower, hupper⟩ := length_encodeBytes (encode md)
  have hstart : (BitVec.ofNat 256 (128 + (encodeBytes (encode md)).length)).toNat =
      128 + (encodeBytes (encode md)).length := by
    rw [BitVec.toNat_ofNat, Nat.mod_eq_of_lt (by omega)]
  have hpointer : (128 : Uint256).toNat = 128 := rfl
  have hfree : Holds (Host.memoryWith (encode md)) 64
      (wordBytes (BitVec.ofNat 256 (128 + (encodeBytes (encode md)).length))) :=
    (holds_freeFrom _).write_of_disjoint (Or.inl (by rw [length_wordBytes]; omega))
  have hbytes : Holds (Host.memoryWith (encode md)) (128 : Uint256).toNat
      (beBytes 32 (encode md).length ++ encode md) := by
    have hall := holds_write (Host.freeFrom (128 + (encodeBytes (encode md)).length)) 128
      (encodeBytes (encode md))
    exact (holds_append.mp hall).1
  exact congrArg Creation.initCode ((metaProxyFromBytes_eq_ok hfree hbytes
    (by rw [hpointer, hstart]; omega)).mp hcreated).2

theorem keeps_createFromCalldata (hs : h.Sound) {selector : Bytes} (hselector : selector.length = 4)
    (hcalldata : h.calldata = selector ++ metadata) (hlt : h.calldata.length < 2 ^ 64) :
    Keeps w₀ h.createFromCalldata := by
  refine keeps_createInitialised hs fun c hcreated => ⟨metadata, ?_⟩
  rw [hcalldata] at hcreated hlt
  rw [List.length_append, hselector] at hlt
  exact congrArg Creation.initCode ((metaProxyFromCalldata_eq_ok (holds_freeFrom 128) hselector
    (by omega)).mp hcreated).2

theorem keeps_selfCreated (hs : h.Sound) (f : Function) (args : Bytes) :
    Keeps w₀ (h.selfCreated f args) :=
  (keeps_call hs 0 h.this 0 _).bind fun _ => (keeps_decoded _).bind fun _ =>
    (keeps_requires _).bind fun _ => keeps_pure _

theorem keeps_checkAbc (md : Metadata) : Keeps w₀ (h.checkAbc md) :=
  (keeps_read _).bind fun _ => (keeps_requires _).bind fun _ => (keeps_requires _).bind fun _ =>
    keeps_requires _

theorem keeps_testReturnSingle (hs : h.Sound) : Keeps w₀ h.testReturnSingle :=
  (keeps_metadataOf hs 0 h.this _).bind fun md => (keeps_checkAbc md).bind fun _ =>
    (keeps_emit _).bind fun _ => keeps_pure _

theorem keeps_testReturnMulti (data : Bytes) (xyz : Uint256) :
    Keeps w₀ (h.testReturnMulti data xyz) :=
  (keeps_getMetadataWithoutCall _).bind fun md => (keeps_checkAbc md).bind fun _ =>
    (keeps_sum md.a md.b).bind fun _ => (keeps_requires _).bind fun _ =>
      (keeps_requires _).bind fun _ => (keeps_emit _).bind fun _ => (keeps_emit _).bind fun _ =>
        keeps_pure _

theorem keeps_testRevert (data : Bytes) : Keeps w₀ (h.testRevert data) :=
  (keeps_getMetadataWithoutCall _).bind fun _ => .ite (keeps_fail _) (keeps_pure ())

theorem keeps_proxyFrom (hs : h.Sound) (f : Function) : Keeps w₀ (h.proxyFrom f) :=
  (keeps_call hs 0 h.this 0 _).bind fun _ => keeps_decoded _

theorem keeps_testGetMetadata (hs : h.Sound) (way get : Function) :
    Keeps w₀ (h.testGetMetadata way get) :=
  (keeps_proxyFrom hs way).bind fun proxy => keeps_metadataOf hs 1 proxy get

theorem keeps_testReturnSingleValue (hs : h.Sound) (way : Function) :
    Keeps w₀ (h.testReturnSingleValue way) :=
  (keeps_proxyFrom hs way).bind fun proxy => (keeps_call hs 1 proxy 0 _).bind fun _ =>
    (keeps_decoded _).bind fun _ => (keeps_requires _).bind fun _ =>
      (keeps_call hs 2 proxy 0 _).bind fun _ => keeps_decoded _

theorem keeps_testReturnMultiValues (hs : h.Sound) (way : Function) :
    Keeps w₀ (h.testReturnMultiValues way) := by
  unfold Host.testReturnMultiValues
  generalize h.abc.b = b
  refine (keeps_proxyFrom hs way).bind fun proxy => (keeps_sum h.this b).bind fun xyz => ?_
  exact (keeps_call hs 1 proxy 0 _).bind fun _ => keeps_decoded _

theorem keeps_testReturnRevert (hs : h.Sound) (way : Function) (args : Bytes) :
    Keeps w₀ (h.testReturnRevert way args) :=
  (keeps_selfCreated hs way args).bind fun proxy => (keeps_rawCall hs 1 proxy 0 _).bind fun _ =>
    (keeps_requires _).bind fun _ => keeps_pure _

theorem length_words (n : Nat) (bs : Bytes) : (words n bs).length = n := by
  induction n generalizing bs with
  | zero => rfl
  | succ n ih => rw [words, List.length_cons, ih]

theorem length_decodeReversed {data : Bytes} {md : Metadata} (h : decodeReversed data = some md) :
    md.c.length < 2 ^ 64 := by
  unfold decodeReversed at h
  split at h
  · exact absurd h nofun
  · obtain ⟨c, hwords, h⟩ := Option.bind_eq_some_iff.mp h
    obtain ⟨a, -, h⟩ := Option.bind_eq_some_iff.mp h
    cases h
    obtain ⟨items, hitems, rfl⟩ := Option.map_eq_some_iff.mp hwords
    unfold itemsAt at hitems
    simp only [Option.ite_none_left_eq_some] at hitems
    obtain ⟨-, -, hlt, -, hitems⟩ := hitems
    cases hitems
    rw [length_words]
    exact not_not.mp hlt

theorem keeps_run (hs : h.Sound) (hinstance : Instance w₀ h.this metadatas) {f : Function}
    (hf : functionOf h.calldata = some f) (hlt : h.calldata.length < 2 ^ 64) :
    Keeps w₀ (h.run f) := by
  have hanswer {γ : Type} {x : Body γ} (hx : Keeps w₀ x) (g : γ → Bytes) :
      Keeps w₀ (do let r ← x; return g r) := hx.bind fun _ => keeps_pure _
  have hview {x : Body Bytes} (hx : Keeps w₀ x) : Keeps w₀ (do h.nonPayable; x) :=
    (keeps_requires _).bind fun _ => hx
  cases f with
  | someValue => exact hview (hanswer (keeps_read _) _)
  | init => exact (keeps_init hs hinstance).bind fun _ => keeps_pure _
  | createFromBytes =>
    exact Keeps.decoded fun md hmd =>
      hanswer (keeps_createFromBytes hs (length_decodeReversed hmd)) _
  | createFromCalldata =>
    have hselector := List.find?_some hf
    have hsplit : h.calldata = h.calldata.take 4 ++ h.calldata.drop 4 :=
      (List.take_append_drop 4 _).symm
    rw [of_decide_eq_true hselector] at hsplit
    exact Keeps.decoded fun _ _ => hanswer (keeps_createFromCalldata hs rfl hsplit hlt) _
  | getMetadataWithoutCall => exact hview (hanswer (keeps_getMetadataWithoutCall _) _)
  | getMetadataViaCall => exact hview (keeps_assembly _)
  | testCreateFromCalldataGetMetadataViaCall
  | testCreateFromCalldataGetMetadataWithoutCall
  | testCreateFromBytesGetMetadataViaCall
  | testCreateFromBytesGetMetadataWithoutCall => exact hanswer (keeps_testGetMetadata hs _ _) _
  | testCreateFromCalldataReturnSingleValue
  | testCreateFromBytesReturnSingleValue => exact hanswer (keeps_testReturnSingleValue hs _) _
  | testCreateFromCalldataReturnMultiValues
  | testCreateFromBytesReturnMultiValues => exact hanswer (keeps_testReturnMultiValues hs _) _
  | testCreateFromCalldataReturnRevert
  | testCreateFromBytesReturnRevert => exact hanswer (keeps_testReturnRevert hs _ _) _
  | getProxyFromCalldata
  | getProxyFromBytes => exact Keeps.decoded fun _ _ => hanswer (keeps_selfCreated hs _ _) _
  | abc => exact hview (hanswer (keeps_pure _) _)
  | testReturnSingle => exact hview (hanswer (keeps_testReturnSingle hs) _)
  | testReturnMulti =>
    exact hview (Keeps.decoded fun _ _ => hanswer (keeps_testReturnMulti _ _) _)
  | testRevert =>
    exact hview (Keeps.decoded fun data _ => (keeps_testRevert data).bind fun _ => keeps_pure _)

-- ---------------------------------------------------------------------------
-- Calls and runs
-- ---------------------------------------------------------------------------

/-- **A call, however deep.** In an account that forwards to the code that runs, a call that
returns keeps the invariant; the induction is on the calls that may be nested in it. -/
theorem contractAt_keeps (hw : Inv w) (hforwards : Forwards w message.this metadatas c)
    (hanswer : (contractAt chain depth gas c message).answer calldata w = .returned bytes w') :
    Kept w w' := by
  induction depth generalizing gas c message calldata metadatas bytes w w' with
  | zero => exact absurd hanswer nofun
  | succ depth ih =>
    cases hcode : w.code c with
    | none =>
      rw [contractAt_noCode hcode] at hanswer
      cases hanswer
      exact .refl hw
    | some code =>
      cases code with
      | bytes code =>
        obtain ⟨targetContract, metadata, hbytes⟩ := hw.proxies hcode
        rw [contractAt_bytes hcode] at hanswer
        exact ih hw (hforwards.concat hcode hbytes) (proxy_returned hbytes hanswer).2
      | metaProxy =>
        rw [contractAt_metaProxy hcode] at hanswer
        obtain ⟨⟨-, hlt, -⟩, hrun⟩ := answer_eq_returned.mp hanswer
        have hsound : (hostAt chain depth gas message calldata).Sound := by
          refine ⟨fun hw hforwards hanswer => ih hw hforwards hanswer, ?_⟩
          intro k a metadatas message w bytes w' hinstance hviaCall
          rw [← List.append_nil Function.getMetadataViaCall.selector] at hviaCall
          obtain ⟨hfound, hnone, hsame⟩ := viaCall_returned hinstance hviaCall
          exact ⟨hfound, fun hnil => hnone hnil rfl, hsame⟩
        unfold Host.dispatch at hrun
        split at hrun
        · next f hf =>
          exact Triple.ok (keeps_run hsound ⟨c, hforwards, hcode⟩ hf hlt) (.refl hw) hrun
        · exact absurd hrun nofun

theorem execute_keeps {tx : Transaction × GasTree} (hw : Inv w) (h : execute chain tx w = .ok w') :
    Kept w w' := by
  obtain ⟨tx, gas⟩ := tx
  cases tx with
  | call sender account value calldata =>
    simp only [execute] at h
    split at h
    · next bytes w₁ hanswer =>
      cases h
      exact contractAt_keeps hw (.here account) hanswer
    · exact absurd h nofun
  | deploy creator targetContract metadata =>
    simp only [execute] at h
    cases h
    exact createAccount_keeps _ _ creator targetContract metadata hw

theorem run_keeps (hw : Inv w) (txs : List (Transaction × GasTree)) :
    Kept w (Calls.applyAll (execute chain) txs w) :=
  Calls.applyAll_induction (fun _ w' => Kept w w') (.refl hw) fun _ _ _ _ hkept h =>
    hkept.trans (execute_keeps hkept.1 h)

theorem inv_deployed (contract : Address) : Inv (deployed contract) where
  proxies {a code} hcode := by
    obtain rfl | ha := eq_or_ne a contract
    · have hcontract : (deployed a).code a = some .metaProxy := by simp [deployed]
      exact absurd (hcontract.symm.trans hcode) nofun
    · have hnone : (deployed contract).code a = none := by simp [deployed, ha]
      exact absurd (hnone.symm.trans hcode) nofun
  values _ := Or.inl ⟨rfl, rfl⟩

-- ---------------------------------------------------------------------------
-- An init that takes effect
-- ---------------------------------------------------------------------------

theorem GasTree.inner_child (gas : GasTree) (n : Nat) :
    (gas.inner n).child 0 = gas.inner (n + 1) := by
  induction n generalizing gas with
  | zero => rfl
  | succ n ih => exact ih (gas.child 0)

theorem GasTree.inner_inner (gas : GasTree) (n k : Nat) :
    (gas.inner n).inner k = gas.inner (n + k) := by
  induction n generalizing gas with
  | zero => rw [Nat.zero_add]; rfl
  | succ n ih => rw [Nat.add_right_comm]; exact ih (gas.child 0)

/-- `init` on an account that has not been initialised. -/
theorem init_of_enough {md : Metadata}
    (hinstance : Instance w message.this (metadatas ++ [metadata]))
    (hdecode : decode metadata = some md) (hpos : 0 < md.b) (hzero : w.someValue message.this = 0)
    (hneed : (Function.init.selector ++ args).length +
      (appended (metadatas ++ [metadata])).length ≤ need)
    (henough : Enough gas (2 * metadatas.length + 3) need) :
    (contractAt chain (metadatas.length + 1 + (metadatas.length + 1 + (depth + 1) + 1)) gas
      message.this message).answer (Function.init.selector ++ args) w =
        .returned [] (w.initialise message.this md.b) := by
  have hn : (metadatas ++ [metadata]).length = metadatas.length + 1 := by
    rw [List.length_append, List.length_singleton]
  have hforward : Enough gas (metadatas ++ [metadata]).length need :=
    fun k hk => henough k (by omega)
  have hinner : Enough ((gas.inner (metadatas ++ [metadata]).length).child 0)
      (metadatas.length + 1) need := by
    intro k hk
    rw [GasTree.inner_child, GasTree.inner_inner]
    exact henough _ (by omega)
  have hself : (contractAt chain (metadatas.length + 1 + (depth + 1))
      ((gas.inner (metadatas ++ [metadata]).length).child 0) message.this
        ⟨message.this, message.this, 0⟩).answer (Function.getMetadataViaCall.selector ++ []) w =
          .returned metadata w := by
    refine viaCall_of_enough hinstance rfl ?_ hinner
    rw [List.length_append, Function.length_selector] at hneed ⊢
    rw [List.length_nil]
    omega
  rw [List.append_nil] at hself
  obtain ⟨c, hforwards, hc⟩ := hinstance
  obtain ⟨hmemory, -, hreaches⟩ := hforward (metadatas ++ [metadata]).length le_rfl
  have hgas := (gas.inner (metadatas ++ [metadata]).length []).gas.memory_lt
  rw [← hn] at hself ⊢
  refine forwards_of_enough hforwards hc hforward hneed (Nat.zero_le _) (answer_eq_returned.mpr
    ⟨⟨hreaches, ?_, Nat.zero_le _⟩, ?_⟩)
  · show (_ ++ _ ++ _ : Bytes).length < 2 ^ 64
    rw [List.length_append]
    omega
  · rw [dispatch_eq (List.append_assoc _ args _)]
    exact exec_bind_eq_ok.mpr ⟨(), w.initialise message.this md.b,
      exec_init_eq_ok.mpr ⟨hzero, metadata, w, md, hself, hdecode, hpos, rfl⟩, rfl⟩

/-- **`someValue` over a run.** From the deployed contract on, whatever transactions follow, with
whatever gas for each of their calls, and whatever proxies they create in front of each other: in
every account `someValue` is zero until a call of `init` takes effect in it, which one call at
most does, and is from then on the `b` of the metadata of its innermost proxy. On an instance
where none has, one that has the gas takes effect if these metadata can be decoded and their `b`
is not zero; what `createFromBytes` encoded is decoded as it was. -/
theorem someValue_of_run (chain : Chain) (contract : Address) (txs : List (Transaction × GasTree)) :
    let w := Calls.applyAll (execute chain) txs (deployed contract)
    (∀ a, w.someValue a = 0 ∧ w.inits.count a = 0 ∨
      ∃ metadatas metadata md, Instance w a (metadatas ++ [metadata]) ∧
        decode metadata = some md ∧ 0 < md.b ∧ w.someValue a = md.b ∧ w.inits.count a = 1) ∧
    (∀ later a, w.someValue a ≠ 0 →
      (Calls.applyAll (execute chain) later w).someValue a = w.someValue a) ∧
    (∀ a metadatas metadata md, Instance w a (metadatas ++ [metadata]) →
      decode metadata = some md → 0 < md.b → w.someValue a = 0 →
      2 * metadatas.length + 4 ≤ chain.callDepth → ∀ sender value args gas need,
      (Function.init.selector ++ args).length + (appended (metadatas ++ [metadata])).length ≤
        need → Enough gas (2 * metadatas.length + 3) need →
          ∃ w', execute chain (.call sender a value (Function.init.selector ++ args), gas) w =
            .ok w' ∧ w'.someValue a = md.b) ∧
    ∀ md, md.c.length < 2 ^ 64 → decode (encode md) = some md := by
  intro w
  have hw : Inv w := (run_keeps (inv_deployed contract) txs).1
  refine ⟨hw.values, ?_, ?_, decode_encode⟩
  · intro later a hvalue
    exact (run_keeps hw later).2.someValue hvalue
  · intro a metadatas metadata md hinstance hdecode hpos hzero hdepth sender value args gas need
      hneed henough
    obtain ⟨depth, hdepth⟩ := Nat.exists_eq_add_of_le hdepth
    have hlevels : chain.callDepth =
        metadatas.length + 1 + (metadatas.length + 1 + (depth + 1) + 1) := by omega
    have hcall : (contractAt chain chain.callDepth gas a ⟨a, sender, value⟩).answer
        (Function.init.selector ++ args) w = .returned [] (w.initialise a md.b) := by
      rw [hlevels]
      exact @init_of_enough chain w _ _ _ depth need gas ⟨a, sender, value⟩ md hinstance hdecode
        hpos hzero hneed henough
    refine ⟨w.initialise a md.b, ?_, Function.update_self ..⟩
    unfold execute
    simp only [hcall]

-- ---------------------------------------------------------------------------
-- A proxy behind a proxy, and a run
-- ---------------------------------------------------------------------------

theorem runInitCode_of_enough {callGas : CallGas} (callee : Address → Evm.Contract World)
    (targetContract : Address) (hmemory : 97 + metadata.length ≤ callGas.gas.memory)
    (hrounds : 9 ≤ callGas.gas.rounds) :
    ∃ deployed : ByteCode, deployed.bytes = deployedCode targetContract metadata ∧
      runInitCode callGas callee (initCode targetContract metadata) w = some (deployed, w) := by
  have hgas := callGas.gas.memory_lt
  have hlen := length_deployedCode targetContract metadata
  have hcode : (initCode targetContract metadata).length < 2 ^ 64 := by
    rw [length_initCode]
    omega
  refine ⟨⟨deployedCode targetContract metadata, by omega⟩, rfl, ?_⟩
  rw [runInitCode, dif_pos hcode]
  refine (ByteCode.ofOutcome_eq_some _).mpr ?_
  exact (initCode_deploys _ targetContract metadata rfl callGas.gasReadings w callGas.gas).2
    (by omega) hrounds

/-- A proxy at a free address. -/
theorem execute_deploy {creator targetContract : Address}
    (hfree : w.code (chain.createAddress creator (w.nonce creator)) = none)
    (hmemory : 97 + metadata.length ≤ (gas []).gas.memory) (hrounds : 9 ≤ (gas []).gas.rounds) :
    ∃ deployed w', deployed.bytes = deployedCode targetContract metadata ∧
      execute chain (.deploy creator targetContract metadata, gas) w = .ok w' ∧
      w'.code = Function.update w.code (chain.createAddress creator (w.nonce creator))
        (some (.bytes deployed)) ∧
      w'.nonce = Function.update w.nonce creator (w.nonce creator + 1) ∧
      w'.someValue = w.someValue := by
  obtain ⟨deployed, hbytes, hrun⟩ := runInitCode_of_enough
    (w := { w with nonce := Function.update w.nonce creator (w.nonce creator + 1) })
    (fun target => contractAt chain chain.callDepth (gas.child 0) target
      ⟨chain.createAddress creator (w.nonce creator), creator, 0⟩) targetContract hmemory hrounds
  refine ⟨deployed, { w with
    nonce := Function.update w.nonce creator (w.nonce creator + 1)
    code := Function.update w.code (chain.createAddress creator (w.nonce creator))
      (some (.bytes deployed)) }, hbytes, ?_, rfl, rfl, rfl⟩
  unfold execute createAccount
  simp only [hfree, hrun, Option.isSome_none, Bool.false_eq_true, if_false]

theorem execute_call_error {sender : Address} {value : Uint256} (hinstance : Instance w a metadatas)
    (hgas : (gas.inner metadatas.length []).reaches = false) :
    ∃ e, execute chain (.call sender a value calldata, gas) w = .error e := by
  obtain ⟨c, hforwards, hc⟩ := hinstance
  unfold execute
  simp only
  split
  · next bytes w' hanswer =>
    obtain ⟨d, -, hinner⟩ := forwards_returned hforwards hc hanswer
    have hreaches : (gas.inner metadatas.length []).reaches = true :=
      (answer_eq_returned.mp hinner).1.1
    rw [hgas] at hreaches
    exact absurd hreaches Bool.false_ne_true
  · exact ⟨_, rfl⟩

theorem sampleMemory_lt : 1000 < 2 ^ 64 := by decide

def sampleGas (reaches : Bool) : GasTree :=
  fun _ => ⟨⟨1000, 100, sampleMemory_lt⟩, fun _ => 0, reaches⟩

theorem inner_sampleGas (reaches : Bool) (n : Nat) :
    (sampleGas reaches).inner n = sampleGas reaches := by
  induction n with
  | zero => rfl
  | succ n ih => exact ih

theorem enough_sampleGas (n : Nat) : Enough (sampleGas true) n 1000 := by
  intro k _
  rw [inner_sampleGas]
  exact ⟨le_rfl, by decide, rfl⟩

/-- New accounts come right behind their creators. -/
def sampleChain : Chain := ⟨fun creator nonce => creator + 1 + BitVec.ofNat 160 nonce,
  fun data => wordOf (data.take 32), 1024⟩

def sampleMetadata : Metadata := ⟨7, 9, [1]⟩

def outerMetadata : Bytes := [3]

def noArgs : Bytes := []

/-- The contract is at 12; a proxy of it at 101, and a proxy of that at 201. -/
def sampleProxies : List (Transaction × GasTree) :=
  [(.deploy 100 12 (encode sampleMetadata), sampleGas true),
    (.deploy 200 101 outerMetadata, sampleGas true)]

def sampleInit : Transaction := .call 5 201 0 (Function.init.selector ++ noArgs)

def sampleWorld : World := Calls.applyAll (execute sampleChain) sampleProxies (deployed 12)

theorem instance_sampleWorld :
    Instance sampleWorld 201 ([outerMetadata] ++ [encode sampleMetadata]) ∧
      sampleWorld.someValue 201 = 0 := by
  have hlen : (encode sampleMetadata).length = 160 := length_encode sampleMetadata
  have hcontract : (deployed 12).code 12 = some .metaProxy := rfl
  obtain ⟨first, w₁, hfirst, hrun₁, hcode₁, hnonce₁, hvalue₁⟩ :
      ∃ (first : ByteCode) (w₁ : World), first.bytes = deployedCode 12 (encode sampleMetadata) ∧
        execute sampleChain (.deploy 100 12 (encode sampleMetadata), sampleGas true) (deployed 12) =
          .ok w₁ ∧ _ :=
    execute_deploy rfl (by rw [hlen]; decide) (by decide)
  obtain ⟨second, w₂, hsecond, hrun₂, hcode₂, -, hvalue₂⟩ :
      ∃ (second : ByteCode) (w₂ : World), second.bytes = deployedCode 101 outerMetadata ∧
        execute sampleChain (.deploy 200 101 outerMetadata, sampleGas true) w₁ = .ok w₂ ∧ _ :=
    execute_deploy (by rw [hcode₁, hnonce₁]; rfl) (by decide) (by decide)
  have hw : sampleWorld = w₂ := by
    rw [sampleWorld, sampleProxies, Calls.applyAll, List.foldl_cons, List.foldl_cons,
      List.foldl_nil, Calls.apply_of_ok hrun₁, Calls.apply_of_ok hrun₂]
  rw [hnonce₁, hcode₁] at hcode₂
  have h12 : w₂.code 12 = some .metaProxy := by rw [hcode₂]; rfl
  have h101 : w₂.code 101 = some (.bytes first) := by rw [hcode₂]; rfl
  have h201 : w₂.code 201 = some (.bytes second) := by rw [hcode₂]; rfl
  rw [hw]
  refine ⟨⟨12, .proxy h201 hsecond (.proxy h101 hfirst (.here 12)), h12⟩, ?_⟩
  rw [hvalue₂, hvalue₁]
  rfl

/-- Through both proxies, the metadata of the inner one; the pointer that the other function
leaves has them too. -/
theorem metadata_of_proxies_sampleWorld :
    (contractAt sampleChain 3 (sampleGas true) 201 ⟨201, 5, 0⟩).answer
        (Function.getMetadataViaCall.selector ++ noArgs) sampleWorld =
      .returned (encode sampleMetadata) sampleWorld ∧
    ∃ m data, getMetadataWithoutCall ⟨1000, 100, sampleMemory_lt⟩ (Host.freeFrom 128)
        (Function.getMetadataWithoutCall.selector ++
          appended ([outerMetadata] ++ [encode sampleMetadata])) = .ok (m, data) ∧
      Holds m data.toNat (beBytes 32 160 ++ encode sampleMetadata) := by
  have hlen : (encode sampleMetadata).length = 160 := length_encode sampleMetadata
  have happended : (appended ([outerMetadata] ++ [encode sampleMetadata])).length = 225 := by
    rw [appended_concat, List.length_append, length_metadataTail, hlen]
    rfl
  obtain ⟨-, hviaCall, hwithoutCall⟩ := metadata_of_proxies sampleChain sampleWorld 201
    [outerMetadata] (encode sampleMetadata) instance_sampleWorld.1 noArgs ⟨201, 5, 0⟩
  constructor
  · refine hviaCall 0 (sampleGas true) 1000 rfl ?_ (enough_sampleGas _)
    rw [happended]
    decide
  · obtain ⟨hreturns, hholds⟩ := hwithoutCall ⟨1000, 100, sampleMemory_lt⟩ (Host.freeFrom 128)
      128 Function.getMetadataWithoutCall.selector (holds_freeFrom 128) (by decide) (by
        rw [List.length_append, happended]
        decide)
    obtain ⟨⟨m, data⟩, hok⟩ := hreturns.mpr (by rw [hlen]; decide)
    rw [← hlen]
    exact ⟨m, data, hok, hholds m data hok⟩

/-- `init` without gas for it, and then with it: the value is that of the inner proxy. -/
theorem someValue_of_run_sampleProxies :
    let w := Calls.applyAll (execute sampleChain)
      (sampleProxies ++ [(sampleInit, sampleGas false)]) (deployed 12)
    w.someValue 201 = 0 ∧ ∃ w', execute sampleChain (sampleInit, sampleGas true) w = .ok w' ∧
      w'.someValue 201 = 9 := by
  have hw : Calls.applyAll (execute sampleChain)
      (sampleProxies ++ [(sampleInit, sampleGas false)]) (deployed 12) = sampleWorld := by
    have hproxies : List.foldl (Calls.apply (execute sampleChain)) (deployed 12) sampleProxies =
        sampleWorld := rfl
    obtain ⟨e, hfails⟩ : ∃ e, execute sampleChain (sampleInit, sampleGas false) sampleWorld =
        .error e := execute_call_error instance_sampleWorld.1 (by rw [inner_sampleGas]; rfl)
    rw [Calls.applyAll, List.foldl_append, hproxies, List.foldl_cons, List.foldl_nil,
      Calls.apply_of_error hfails]
  have hlen : (encode sampleMetadata).length = 160 := length_encode sampleMetadata
  obtain ⟨-, -, hinit, hdecode⟩ := someValue_of_run sampleChain 12
    (sampleProxies ++ [(sampleInit, sampleGas false)])
  rw [hw] at hinit ⊢
  refine ⟨instance_sampleWorld.2, ?_⟩
  refine hinit 201 [outerMetadata] (encode sampleMetadata) sampleMetadata instance_sampleWorld.1
    (hdecode sampleMetadata (by decide)) (by decide) instance_sampleWorld.2 (by decide) 5 0 noArgs
    (sampleGas true) 1000 ?_ (enough_sampleGas _)
  rw [appended_concat, List.length_append, List.length_append, length_metadataTail, hlen]
  decide

end NeonTests.MetaProxy
