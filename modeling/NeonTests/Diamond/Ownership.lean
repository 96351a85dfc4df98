import NeonTests.Diamond.Dispatch
import Mathlib.Data.BitVec

/-!
# The diamond — who can change it

Whoever can make the diamond delegate to code of their own can do anything to it. The facets
in the table are what anyone can have run, so they must be `Safe`: neither hostile nor
`DiamondMultiInit`, which runs what it is told to. What only the owner's messages can have run
is `Trusted` as long as it is not hostile.

* `delegate_sound` — a trusted message keeps the table consistent and its facets safe, however
  its initialisers are nested;
* `delegate_stranger` — what anyone but the owner has run leaves the table and the owner alone;
* `changed_by_owner` — both over whole runs;
* `frozen_forever` — when nobody can change the table any more.
-/

namespace NeonTests.Diamond

open Batch Fallible Solidity

variable {Address σ : Type}

-- ---------------------------------------------------------------------------
-- Code
-- ---------------------------------------------------------------------------

/-- Not hostile. -/
def Code.trusted : Code Address σ → Bool
  | .hostile _ => false
  | _ => true

/-- What anyone may have run. -/
def Code.safe : Code Address σ → Bool
  | .hostile _ => false
  | .diamondMultiInit => false
  | _ => true

theorem Code.trusted_of_safe {code : Code Address σ} (h : code.safe = true) :
    code.trusted = true := by
  cases code <;> first | rfl | exact absurd h Bool.false_ne_true

mutual

/-- What the message adds to the table is safe, and what it has run is trusted. -/
def Trusted (w : World Address σ) : Msg Address → Prop
  | .diamondCut cuts init calldata =>
    (∀ cut ∈ cuts, cut.action ≠ .remove → (w.code cut.facetAddress).safe = true) ∧
      (w.code init).trusted = true ∧ Trusted w calldata
  | .multiInit addresses calldata =>
    (∀ a ∈ addresses, (w.code a).trusted = true) ∧ AllTrusted w calldata
  | _ => True

def AllTrusted (w : World Address σ) : List (Msg Address) → Prop
  | [] => True
  | msg :: msgs => Trusted w msg ∧ AllTrusted w msgs

end

variable [Zero Address]

-- ---------------------------------------------------------------------------
-- The invariant
-- ---------------------------------------------------------------------------

/-- The table is consistent, and every facet it got was safe. -/
def Sound (w : World Address σ) (s : State Address σ) : Prop :=
  ∃ history, Records history s.ds ∧
    ∀ c ∈ history, c.action ≠ .remove → (w.code c.facetAddress).safe = true

variable {w : World Address σ} {s s' : State Address σ} {sender target init : Address}
  {msg calldata : Msg Address} {code : Code Address σ}

theorem Change.facet_cases (c : Change Address) :
    c.facet = 0 ∨ c.action ≠ .remove ∧ c.facet = c.facetAddress := by
  obtain ⟨action, facet, selector⟩ := c
  cases action with
  | remove => exact Or.inl rfl
  | add => exact Or.inr ⟨nofun, rfl⟩
  | replace => exact Or.inr ⟨nofun, rfl⟩

theorem inForce_cases (history : List (Change Address)) (selector : Selector) :
    inForce history selector = 0 ∨
      ∃ c ∈ history, c.action ≠ .remove ∧ inForce history selector = c.facetAddress := by
  unfold inForce
  split
  · next c hfind =>
    have hmem : c ∈ history := List.mem_reverse.mp (List.mem_of_find?_eq_some hfind)
    obtain hzero | ⟨haction, heq⟩ := c.facet_cases
    · exact Or.inl hzero
    · exact Or.inr ⟨c, hmem, haction, heq⟩
  · exact Or.inl rfl

/-- Every facet of the table is safe. -/
theorem Sound.safe (h : Sound w s) {selector : Selector}
    (hfacet : facetAddress s.ds selector ≠ 0) :
    (w.code (facetAddress s.ds selector)).safe = true := by
  obtain ⟨history, hrecords, hsafe⟩ := h
  rw [hrecords.lookup] at hfacet ⊢
  obtain hzero | ⟨c, hmem, haction, heq⟩ := inForce_cases history selector
  · exact absurd hzero hfacet
  · rw [heq]
    exact hsafe c hmem haction

theorem Sound.congr (h : Sound w s) (hds : s'.ds = s.ds) : Sound w s' := by
  unfold Sound
  rw [hds]
  exact h

variable [DecidableEq Address]

-- ---------------------------------------------------------------------------
-- What runs
-- ---------------------------------------------------------------------------

omit [Zero Address] [DecidableEq Address] in
theorem library_eq_ok {α : Type} {x : Except (Error Address) α} {a : α} :
    library x = .ok a ↔ x = .ok a := by
  cases x with
  | error e => exact ⟨nofun, nofun⟩
  | ok b => simp [library]

theorem resolve_cases (h : resolve w s msg target = .ok code) :
    code = w.code target ∨
      (facetAddress s.ds (w.sig.of msg) ≠ 0 ∧ code = w.code (facetAddress s.ds (w.sig.of msg))) := by
  unfold resolve at h
  split at h
  · obtain ⟨hfacet, h⟩ := guard_bind_eq_ok.mp h
    refine Or.inr ⟨hfacet, ?_⟩
    split at h
    · exact absurd h nofun
    · exact (Except.ok.inj h).symm
  · exact Or.inl (Except.ok.inj h).symm

theorem resolve_trusted (h : resolve w s msg target = .ok code) (hs : Sound w s)
    (htarget : (w.code target).trusted = true) : code.trusted = true := by
  obtain rfl | ⟨hfacet, rfl⟩ := resolve_cases h
  · exact htarget
  · exact Code.trusted_of_safe (hs.safe hfacet)

omit [Zero Address] in
/-- Code that calls no other leaves the table alone if it is not hostile, and the owner too
if the owner did not ask for it. -/
theorem runPlain_ok (h : runPlain w sender msg code s = .ok s') (hcode : code.trusted = true) :
    s'.ds = s.ds ∧ (s'.contractOwner = s.contractOwner ∨ sender = s.contractOwner) := by
  unfold runPlain at h
  split at h
  · cases h
    exact ⟨rfl, Or.inl rfl⟩
  · obtain ⟨howner, h⟩ := guard_bind_eq_ok.mp h
    cases pure_eq_ok.mp h
    exact ⟨rfl, Or.inr howner⟩
  · cases h
    exact ⟨rfl, Or.inl rfl⟩
  · split at h
    · exact absurd h nofun
    · cases h
      exact ⟨rfl, Or.inl rfl⟩
  · cases h
    exact ⟨rfl, Or.inl rfl⟩
  · split at h
    · cases h
      exact ⟨rfl, Or.inl rfl⟩
    · exact absurd h nofun
  · exact absurd hcode Bool.false_ne_true
  · exact absurd h nofun

theorem runPlain_sound (h : runPlain w sender msg code s = .ok s') (hcode : code.trusted = true)
    (hs : Sound w s) : Sound w s' :=
  hs.congr (runPlain_ok h hcode).1

theorem plain_sound
    (h : (resolve w s msg target >>= fun code => runPlain w sender msg code s) = .ok s')
    (htarget : (w.code target).trusted = true) (hs : Sound w s) : Sound w s' := by
  obtain ⟨code, hcode, h⟩ := bind_eq_ok.mp h
  exact runPlain_sound h (resolve_trusted hcode hs htarget) hs

/-- An initialiser is not run, or runs as a delegated message. -/
theorem initializeDiamondCut_cases
    {delegatecall : State Address σ → Except (Failure Address) (State Address σ)}
    (h : initializeDiamondCut w init calldata delegatecall s = .ok s') :
    s' = s ∨ delegatecall s = .ok s' := by
  unfold initializeDiamondCut at h
  split at h
  · exact Or.inl (Except.ok.inj h).symm
  · obtain ⟨_, _, h⟩ := bind_eq_ok.mp h
    split at h
    · next s₁ hrun =>
      cases h
      exact Or.inr hrun
    · exact absurd h nofun

/-- The cuts of a trusted message. -/
theorem diamondCut_sound {cuts : List (FacetCut Address)} {ds : DiamondStorage Address}
    {extcodesize : Address → Uint256} {data : List (BitVec 8)}
    (h : diamondCut w.this ⟨extcodesize, cuts, data⟩ s.ds = .ok ds)
    (hcuts : ∀ cut ∈ cuts, cut.action ≠ .remove → (w.code cut.facetAddress).safe = true)
    (hs : Sound w s) : Sound w { s with ds := ds } := by
  obtain ⟨history, hrecords, hsafe⟩ := hs
  refine ⟨_, diamondCut_records h hrecords, ?_⟩
  intro c hc
  obtain hc | hc := List.mem_append.mp hc
  · exact hsafe c hc
  · obtain ⟨cut, hcut, hc⟩ := List.mem_flatMap.mp hc
    obtain ⟨selector, -, rfl⟩ := List.mem_map.mp hc
    exact hcuts cut hcut

mutual

/-- **Trusted messages.** Whatever a trusted message has run, however deep, the diamond stays
sound. -/
theorem delegate_sound : ∀ (msg : Msg Address) (target : Address) (s s' : State Address σ),
    delegate w sender msg target s = .ok s' → Trusted w msg →
      (w.code target).trusted = true → Sound w s → Sound w s'
  | .diamondCut cuts init calldata, target, s, s', h, hmsg, htarget, hs => by
    obtain ⟨hcuts, hinit, hcalldata⟩ := hmsg
    obtain ⟨code, hcode, h⟩ := bind_eq_ok.mp h
    have htrusted := resolve_trusted hcode hs htarget
    split at h
    · obtain ⟨-, h⟩ := guard_bind_eq_ok.mp h
      obtain ⟨ds, hds, h⟩ := bind_eq_ok.mp h
      have hcut := diamondCut_sound (library_eq_ok.mp hds) hcuts hs
      obtain rfl | hdelegated := initializeDiamondCut_cases h
      · exact hcut
      · exact delegate_sound calldata init _ s' hdelegated hcalldata hinit hcut
    · exact runPlain_sound h htrusted hs
  | .multiInit addresses calldata, target, s, s', h, hmsg, htarget, hs => by
    obtain ⟨haddresses, hcalldata⟩ := hmsg
    obtain ⟨code, hcode, h⟩ := bind_eq_ok.mp h
    have htrusted := resolve_trusted hcode hs htarget
    split at h
    · obtain ⟨-, h⟩ := guard_bind_eq_ok.mp h
      exact delegateAll_sound calldata addresses s s' h hcalldata haddresses hs
    · exact runPlain_sound h htrusted hs
  | .init, _, _, _, h, _, htarget, hs => plain_sound h htarget hs
  | .transferOwnership _, _, _, _, h, _, htarget, hs => plain_sound h htarget hs
  | .view _, _, _, _, h, _, htarget, hs => plain_sound h htarget hs
  | .other _ _, _, _, _, h, _, htarget, hs => plain_sound h htarget hs

theorem delegateAll_sound : ∀ (msgs : List (Msg Address)) (addresses : List Address)
    (s s' : State Address σ), delegateAll w sender msgs addresses s = .ok s' →
      AllTrusted w msgs → (∀ a ∈ addresses, (w.code a).trusted = true) → Sound w s → Sound w s'
  | [], _, s, s', h, _, _, hs => by
    rw [delegateAll] at h
    cases h
    exact hs
  | _ :: _, [], s, s', h, _, _, hs => by
    rw [delegateAll] at h
    cases h
    exact hs
  | calldata :: rest, init :: inits, s, s', h, hmsgs, haddresses, hs => by
    obtain ⟨hcalldata, hrest⟩ := hmsgs
    obtain ⟨hinit, hinits⟩ := List.forall_mem_cons.mp haddresses
    obtain ⟨s₁, hfirst, h⟩ := bind_eq_ok.mp h
    have hs₁ : Sound w s₁ := by
      obtain rfl | hdelegated := initializeDiamondCut_cases hfirst
      · exact hs
      · exact delegate_sound calldata init s s₁ hdelegated hcalldata hinit hs
    exact delegateAll_sound rest inits s₁ s' h hrest hinits hs₁

end

-- ---------------------------------------------------------------------------
-- Calls by others
-- ---------------------------------------------------------------------------

theorem resolve_safe (h : resolve w s msg target = .ok code) (hs : Sound w s)
    (htarget : (w.code target).safe = true) : code.safe = true := by
  obtain rfl | ⟨hfacet, rfl⟩ := resolve_cases h
  · exact htarget
  · exact hs.safe hfacet

theorem plain_stranger
    (h : (resolve w s msg target >>= fun code => runPlain w sender msg code s) = .ok s')
    (htarget : (w.code target).safe = true) (hs : Sound w s) (hsender : sender ≠ s.contractOwner) :
    s'.ds = s.ds ∧ s'.contractOwner = s.contractOwner := by
  obtain ⟨code, hcode, h⟩ := bind_eq_ok.mp h
  have hsafe := resolve_safe hcode hs htarget
  obtain ⟨hds, howner⟩ := runPlain_ok h (Code.trusted_of_safe hsafe)
  exact ⟨hds, howner.resolve_right hsender⟩

/-- Anyone but the owner leaves the table and the owner as they are. -/
theorem delegate_stranger (h : delegate w sender msg target s = .ok s')
    (htarget : (w.code target).safe = true) (hs : Sound w s) (hsender : sender ≠ s.contractOwner) :
    s'.ds = s.ds ∧ s'.contractOwner = s.contractOwner := by
  cases msg with
  | diamondCut cuts init calldata =>
    obtain ⟨code, hcode, h⟩ := bind_eq_ok.mp h
    have hsafe := resolve_safe hcode hs htarget
    split at h
    · exact absurd (guard_bind_eq_ok.mp h).1 hsender
    · obtain ⟨hds, howner⟩ := runPlain_ok h (Code.trusted_of_safe hsafe)
      exact ⟨hds, howner.resolve_right hsender⟩
  | multiInit addresses calldata =>
    obtain ⟨code, hcode, h⟩ := bind_eq_ok.mp h
    have hsafe := resolve_safe hcode hs htarget
    split at h
    · exact absurd hsafe Bool.false_ne_true
    · obtain ⟨hds, howner⟩ := runPlain_ok h (Code.trusted_of_safe hsafe)
      exact ⟨hds, howner.resolve_right hsender⟩
  | init => exact plain_stranger h htarget hs hsender
  | transferOwnership newOwner => exact plain_stranger h htarget hs hsender
  | view v => exact plain_stranger h htarget hs hsender
  | other selector args => exact plain_stranger h htarget hs hsender

-- ---------------------------------------------------------------------------
-- Runs
-- ---------------------------------------------------------------------------

omit [Zero Address] in
theorem constructing_code_of_ne {a : Address} (h : a ≠ w.this) :
    w.constructing.code a = w.code a := Function.update_of_ne h ..

theorem constructing_sound (hthis : (w.code w.this).safe = true) (h : Sound w.constructing s) :
    Sound w s := by
  obtain ⟨history, hrecords, hsafe⟩ := h
  refine ⟨history, hrecords, fun c hc haction => ?_⟩
  have hcode := hsafe c hc haction
  obtain heq | hne := eq_or_ne c.facetAddress w.this
  · rw [heq]
    exact hthis
  · rw [constructing_code_of_ne hne] at hcode
    exact hcode

theorem construct_sound {deployer owner : Address} {cuts : List (FacetCut Address)} {app : σ}
    (h : construct w deployer owner cuts init calldata app = .ok s)
    (hmsg : Trusted w.constructing (.diamondCut cuts init calldata))
    (hthis : (w.code w.this).safe = true) : Sound w s := by
  obtain ⟨hcuts, hinit, hcalldata⟩ := hmsg
  obtain ⟨ds, hds, h⟩ := bind_eq_ok.mp h
  have hempty : Sound w.constructing ⟨empty, fun _ => false, owner, app⟩ :=
    ⟨[], empty_records, fun _ hc => absurd hc List.not_mem_nil⟩
  have hcut := diamondCut_sound (library_eq_ok.mp hds) hcuts hempty
  refine constructing_sound hthis ?_
  obtain rfl | hdelegated := initializeDiamondCut_cases h
  · exact hcut
  · exact delegate_sound calldata init _ s hdelegated hcalldata hinit hcut

theorem step_cases (w : World Address σ) (s : State Address σ) (c : ExternalCall Address)
    (h : step w s c = some s') : s' = s ∨ delegate w c.sender c.msg w.this s = .ok s' := by
  cases h
  cases hexec : exec w c s with
  | ok t =>
    rw [Calls.apply_of_ok hexec]
    exact Or.inr hexec
  | error e => exact Or.inl (Calls.apply_of_error hexec)

theorem step_sound (hthis : (w.code w.this).safe = true) {c : ExternalCall Address}
    (h : step w s c = some s') (hmsg : c.sender = s.contractOwner → Trusted w c.msg)
    (hs : Sound w s) : Sound w s' := by
  obtain rfl | hdelegated := step_cases w s c h
  · exact hs
  · by_cases howner : c.sender = s.contractOwner
    · exact delegate_sound c.msg w.this s s' hdelegated (hmsg howner)
        (Code.trusted_of_safe hthis) hs
    · exact hs.congr (delegate_stranger hdelegated hthis hs howner).1

theorem step_stranger (hthis : (w.code w.this).safe = true) {c : ExternalCall Address}
    (h : step w s c = some s') (hs : Sound w s) (hsender : c.sender ≠ s.contractOwner) :
    s'.ds = s.ds ∧ s'.contractOwner = s.contractOwner := by
  obtain rfl | hdelegated := step_cases w s c h
  · exact ⟨rfl, rfl⟩
  · exact delegate_stranger hdelegated hthis hs hsender

theorem steps_stranger (hthis : (w.code w.this).safe = true) {calls : List (ExternalCall Address)}
    (hs : Sound w s)
    (hcalls : Runs.Steps (step w) (fun s c => c.sender = s.contractOwner → Trusted w c.msg) s
      calls) :
    Runs.Steps (step w) (fun s c => ∀ s', step w s c = some s' → c.sender ≠ s.contractOwner →
      s'.ds = s.ds ∧ s'.contractOwner = s.contractOwner) s calls := by
  induction calls generalizing s with
  | nil => trivial
  | cons c calls ih =>
    refine ⟨fun s' h hsender => step_stranger hthis h hs hsender, ?_⟩
    intro s' h
    exact ih (step_sound hthis h hcalls.1 hs) (hcalls.2 s' h)

/-- **Who can change a diamond.** If what the constructor and the owners' calls add to the table
is neither hostile nor `DiamondMultiInit`, and what they run as initialisers, however nested, is
not hostile, then over any run of calls by anyone, with any other code about: every facet stays
safe, the table stays consistent, and a call that changes the table or the owner was made by the
owner. -/
theorem changed_by_owner (w : World Address σ) (hthis : w.code w.this = .diamond)
    (deployer owner : Address) (cuts : List (FacetCut Address)) (init : Address)
    (calldata : Msg Address) (app : σ) (s₀ : State Address σ)
    (hdeployed : construct w deployer owner cuts init calldata app = .ok s₀)
    (hconstructor : Trusted w.constructing (.diamondCut cuts init calldata))
    (calls : List (ExternalCall Address))
    (howners : Runs.Steps (step w) (fun s c => c.sender = s.contractOwner → Trusted w c.msg) s₀
      calls) :
    (∀ s ∈ Runs.states (step w) s₀ calls, Table s.ds ∧ ∀ selector,
      facetAddress s.ds selector ≠ 0 → (w.code (facetAddress s.ds selector)).safe = true) ∧
    Runs.Steps (step w) (fun s c => ∀ s', step w s c = some s' → c.sender ≠ s.contractOwner →
      s'.ds = s.ds ∧ s'.contractOwner = s.contractOwner) s₀ calls := by
  have hsafe : (w.code w.this).safe = true := by rw [hthis]; rfl
  have hs₀ : Sound w s₀ := construct_sound hdeployed hconstructor hsafe
  constructor
  · intro s hs
    have hsound : Sound w s := Runs.states_induction (Sound w) hs₀
      (fun t c t' ht hmsg hstep => step_sound hsafe hstep hmsg ht) howners s hs
    obtain ⟨history, hrecords, -⟩ := id hsound
    exact ⟨hrecords.toTable, fun selector => hsound.safe⟩
  · exact steps_stranger hsafe hs₀ howners

/-- Facets at 1 to 3, the diamond at 4, initialisers at 5 and 6, and at 7 code that takes the
diamond over. -/
def sampleWorld : World (BitVec 160) Nat where
  this := 4
  code a := match a.toNat with
    | 1 => .diamondCutFacet
    | 2 => .ownershipFacet
    | 3 => .application fun _ _ n => .ok (n + 1)
    | 4 => .diamond
    | 5 => .diamondInit
    | 6 => .diamondMultiInit
    | 7 => .hostile fun _ s => .ok { s with contractOwner := 7 }
    | _ => .none
  sig := ⟨1, 2, 3, 4, fun _ => 5⟩
  interfaceIds := [100]
  abi _ := []

/-- A diamond initialised through `multiInit`; account 8 tries to add the hostile facet. -/
theorem changed_by_owner_sampleWorld :
    ∃ s₀, construct sampleWorld 8 9 [⟨1, .add, [1]⟩, ⟨2, .add, [4]⟩] 6 (.multiInit [5] [.init]) 0 =
        .ok s₀ ∧
      ∀ s', step sampleWorld s₀ ⟨8, .diamondCut [⟨7, .add, [77]⟩] 0 (.other 0 [])⟩ = some s' →
        s'.ds = s₀.ds ∧ s'.contractOwner = s₀.contractOwner := by
  refine ⟨_, rfl, ?_⟩
  refine fun s' h => (changed_by_owner sampleWorld rfl 8 9 [⟨1, .add, [1]⟩, ⟨2, .add, [4]⟩] 6
    (.multiInit [5] [.init]) 0 _ rfl ?_
    [⟨8, .diamondCut [⟨7, .add, [77]⟩] 0 (.other 0 [])⟩] ?_).2.1 s' h ?_
  · refine ⟨?_, rfl, ?_, trivial, trivial⟩
    · simp [World.constructing, sampleWorld, Function.update, Code.safe]
    · simp [World.constructing, sampleWorld, Function.update, Code.trusted]
  · exact ⟨fun h => absurd h (by decide), fun _ _ => trivial⟩
  · decide

-- ---------------------------------------------------------------------------
-- Frozen diamonds
-- ---------------------------------------------------------------------------

/-- `diamondCut` finds no facet with that function, or nobody who calls is the owner. -/
def Frozen (w : World Address σ) (senders : List Address) (s : State Address σ) : Prop :=
  (facetAddress s.ds w.sig.diamondCut = 0 ∨
    w.code (facetAddress s.ds w.sig.diamondCut) ≠ .diamondCutFacet) ∨
  s.contractOwner ∉ senders

theorem resolve_this (hthis : w.code w.this = .diamond)
    (h : resolve w s msg w.this = .ok code) :
    facetAddress s.ds (w.sig.of msg) ≠ 0 ∧ code = w.code (facetAddress s.ds (w.sig.of msg)) := by
  unfold resolve at h
  rw [hthis] at h
  obtain ⟨hfacet, h⟩ := guard_bind_eq_ok.mp h
  refine ⟨hfacet, ?_⟩
  split at h
  · exact absurd h nofun
  · exact (Except.ok.inj h).symm

theorem plain_table
    (h : (resolve w s msg target >>= fun code => runPlain w sender msg code s) = .ok s')
    (htarget : (w.code target).safe = true) (hs : Sound w s) : s'.ds = s.ds := by
  obtain ⟨code, hcode, h⟩ := bind_eq_ok.mp h
  exact (runPlain_ok h (Code.trusted_of_safe (resolve_safe hcode hs htarget))).1

/-- Without the facet for cuts, not even the owner changes the table. -/
theorem delegate_frozen (h : delegate w sender msg w.this s = .ok s')
    (hthis : w.code w.this = .diamond) (hs : Sound w s)
    (hfrozen : facetAddress s.ds w.sig.diamondCut = 0 ∨
      w.code (facetAddress s.ds w.sig.diamondCut) ≠ .diamondCutFacet) : s'.ds = s.ds := by
  have hsafe : (w.code w.this).safe = true := by rw [hthis]; rfl
  cases msg with
  | diamondCut cuts init calldata =>
    obtain ⟨code, hcode, h⟩ := bind_eq_ok.mp h
    have htrusted := Code.trusted_of_safe (resolve_safe hcode hs hsafe)
    split at h
    · obtain ⟨hfacet, hcut⟩ := resolve_this hthis hcode
      exact absurd hcut.symm (hfrozen.resolve_left hfacet)
    · exact (runPlain_ok h htrusted).1
  | multiInit addresses calldata =>
    obtain ⟨code, hcode, h⟩ := bind_eq_ok.mp h
    have hcodeSafe := resolve_safe hcode hs hsafe
    split at h
    · exact absurd hcodeSafe Bool.false_ne_true
    · exact (runPlain_ok h (Code.trusted_of_safe hcodeSafe)).1
  | init => exact plain_table h hsafe hs
  | transferOwnership newOwner => exact plain_table h hsafe hs
  | view v => exact plain_table h hsafe hs
  | other selector args => exact plain_table h hsafe hs

theorem step_frozen (hthis : w.code w.this = .diamond) {c : ExternalCall Address}
    {senders : List Address} (h : step w s c = some s') (hc : c.sender ∈ senders)
    (hs : Sound w s) (hfrozen : Frozen w senders s) : s'.ds = s.ds ∧ Frozen w senders s' := by
  have hsafe : (w.code w.this).safe = true := by rw [hthis]; rfl
  obtain rfl | hdelegated := step_cases w s c h
  · exact ⟨rfl, hfrozen⟩
  · obtain hfacet | howner := hfrozen
    · have hds := delegate_frozen hdelegated hthis hs hfacet
      refine ⟨hds, Or.inl ?_⟩
      rw [hds]
      exact hfacet
    · obtain ⟨hds, hkept⟩ := delegate_stranger hdelegated hsafe hs
        fun heq => howner (heq ▸ hc)
      refine ⟨hds, Or.inr ?_⟩
      rw [hkept]
      exact howner

/-- **Frozen for good.** If in a state that trusted messages led to no facet answers
`diamondCut`, or the owner is nobody who ever calls, then over any run of calls, trusted or not
and with any code about, the table stays as it is. -/
theorem frozen_forever (w : World Address σ) (hthis : w.code w.this = .diamond)
    (s₀ : State Address σ) (hs₀ : Sound w s₀) (calls : List (ExternalCall Address))
    (hfrozen : Frozen w (calls.map ExternalCall.sender) s₀) :
    ∀ s ∈ Runs.states (step w) s₀ calls, s.ds = s₀.ds := by
  have hcalls : Runs.Steps (step w)
      (fun _ c => c.sender ∈ calls.map ExternalCall.sender) s₀ calls :=
    Runs.steps_of_forall fun c hc => List.mem_map_of_mem hc
  intro s hs
  refine (Runs.states_induction (fun s => s.ds = s₀.ds ∧ Sound w s ∧
    Frozen w (calls.map ExternalCall.sender) s) ⟨rfl, hs₀, hfrozen⟩ ?_ hcalls s hs).1
  rintro t c t' ⟨hds, ht, hfrozen⟩ hc hstep
  obtain ⟨hkept, hfrozen'⟩ := step_frozen hthis hstep hc ht hfrozen
  exact ⟨hkept.trans hds, ht.congr hkept, hfrozen'⟩

/-- A diamond whose owner adds the application facet and removes `diamondCut` itself: the
application still runs, and neither the owner nor anybody else changes the table. -/
theorem frozen_forever_sampleWorld :
    let cuts : List (FacetCut (BitVec 160)) := [⟨1, .add, [1]⟩, ⟨2, .add, [4]⟩, ⟨3, .add, [77]⟩]
    let calls : List (ExternalCall (BitVec 160)) :=
      [⟨8, .other 77 []⟩, ⟨9, .diamondCut [⟨3, .add, [78]⟩] 7 (.other 0 [])⟩,
        ⟨9, .transferOwnership 8⟩, ⟨8, .other 77 []⟩]
    ∃ s₀, (construct sampleWorld 8 9 cuts 0 (.other 0 []) 0 >>=
        exec sampleWorld ⟨9, .diamondCut [⟨0, .remove, [1]⟩] 0 (.other 0 [])⟩) = .ok s₀ ∧
      facetAddress s₀.ds 1 = 0 ∧ facetAddress s₀.ds 77 = 3 ∧
      (Calls.applyAll (exec sampleWorld) calls s₀).app = 2 ∧
      (Runs.states (step sampleWorld) s₀ calls).Forall fun s => s.ds = s₀.ds := by
  intro cuts calls
  have hcuts : Trusted sampleWorld.constructing (.diamondCut cuts 0 (.other 0 [])) := by
    refine ⟨?_, rfl, trivial⟩
    simp [cuts, World.constructing, sampleWorld, Function.update, Code.safe]
  have hremove : Trusted sampleWorld (.diamondCut [⟨0, .remove, [1]⟩] 0 (.other 0 [])) :=
    ⟨by simp, rfl, trivial⟩
  have hrun : (construct sampleWorld 8 9 cuts 0 (.other 0 []) 0 >>=
      exec sampleWorld ⟨9, .diamondCut [⟨0, .remove, [1]⟩] 0 (.other 0 [])⟩) = .ok _ := rfl
  obtain ⟨s₁, hcreated, hremoved⟩ := bind_eq_ok.mp hrun
  have hsound := delegate_sound _ _ _ _ hremoved hremove rfl (construct_sound hcreated hcuts rfl)
  exact ⟨_, hrun, rfl, rfl, rfl, List.forall_iff_forall_mem.mpr
    (frozen_forever sampleWorld rfl _ hsound calls (Or.inl (Or.inl rfl)))⟩

end NeonTests.Diamond
