import NeonTests.Erc1820.Definitions
import NeonTests.Lib.Log

/-!
# The ERC-1820 registry — what it knows

The abstract registry is the list of the transactions it accepted: `admitted` says which these
are, looking at nothing but the ones before, and the last one under a key is what counts. The
events tell who manages an address and who implements what for it; the cached verdicts have no
events.

* `registry_follows` — the code is that registry, over any run;
* `unchanged_without_manager` — as long as the manager of an address is silent, nobody changes
  the manager or an implementer of it.
-/

namespace NeonTests.Erc1820

open Calls Fallible Logs Registry Solidity

-- ---------------------------------------------------------------------------
-- The abstract registry
-- ---------------------------------------------------------------------------

def Event.manager? : Event → Option (Address × Address)
  | .managerChanged addr newManager => some (addr, if newManager = 0 then addr else newManager)
  | .interfaceImplementerSet .. => none

def Event.implementer? : Event → Option ((Address × Bytes32) × Address)
  | .interfaceImplementerSet addr interfaceHash implementer =>
    some ((addr, interfaceHash), implementer)
  | .managerChanged .. => none

/-- An address manages itself until it hands that over. -/
def managerOf (logs : List Event) (addr : Address) : Address :=
  (latest Event.manager? logs addr).getD addr

def implementerOf (logs : List Event) (addr : Address) (hash : Bytes32) : Address :=
  (latest Event.implementer? logs (addr, hash)).getD 0

def Tx.event? (tx : Tx) : Option Event :=
  match tx.call with
  | .setInterfaceImplementer _addr _interfaceHash _implementer =>
    some (.interfaceImplementerSet (orSender tx.sender _addr) _interfaceHash _implementer)
  | .setManager _addr _newManager => some (.managerChanged _addr _newManager)
  | .updateERC165Cache .. => none

def Tx.verdict? (tx : Tx) : Option ((Address × Bytes4) × Bool) :=
  match tx.call with
  | .updateERC165Cache _contract _interfaceId =>
    some ((_contract, _interfaceId),
      implementsERC165InterfaceNoCache tx.outside _contract _interfaceId)
  | _ => none

def events (past : List Tx) : List Event := past.filterMap Tx.event?

def cachedVerdict (past : List Tx) (contract : Address) (id : Bytes4) : Option Bool :=
  latest Tx.verdict? past (contract, id)

def Accepted (sender : Address) (outside : Outside) (addr : Address) (hash : Bytes32)
    (implementer : Address) : Prop :=
  implementer = 0 ∨ implementer = sender ∨
    outside.canImplementInterfaceForAddress implementer hash addr = some erc1820AcceptMagic

instance (sender : Address) (outside : Outside) (addr : Address) (hash : Bytes32)
    (implementer : Address) : Decidable (Accepted sender outside addr hash implementer) :=
  inferInstanceAs (Decidable (_ ∨ _ ∨ _))

def Authorised (logs : List Event) (tx : Tx) : Prop :=
  match tx.call with
  | .setInterfaceImplementer _addr _interfaceHash _implementer =>
    managerOf logs (orSender tx.sender _addr) = tx.sender ∧
      isERC165Interface _interfaceHash = false ∧
      Accepted tx.sender tx.outside (orSender tx.sender _addr) _interfaceHash _implementer
  | .setManager _addr _ => managerOf logs _addr = tx.sender
  | .updateERC165Cache .. => True

instance (logs : List Event) (tx : Tx) : Decidable (Authorised logs tx) := by
  unfold Authorised
  split <;> infer_instance

/-- The transactions that are accepted. -/
def admitted (past : List Tx) : List Tx → List Tx
  | [] => []
  | tx :: txs =>
    if Authorised (events past) tx then tx :: admitted (past ++ [tx]) txs else admitted past txs

-- ---------------------------------------------------------------------------
-- One transaction
-- ---------------------------------------------------------------------------

variable {r r' : Registry} {tx : Tx} {past : List Tx} {sender addr contract : Address}
  {outside : Outside} {hash : Bytes32} {implementer : Address}

theorem accepts_eq_ok {u : Unit} :
    accepts sender outside addr hash implementer = .ok u ↔
      Accepted sender outside addr hash implementer := by
  unfold accepts Accepted
  split
  · next h =>
    rw [or_iff_right h.1, or_iff_right h.2]
    split
    · next hnone => simp [hnone]
    · next answer hsome => simp [hsome]
  · next h =>
    simp only [true_iff]
    grind

theorem setInterfaceImplementer_eq_ok {_addr : Address} :
    r.setInterfaceImplementer sender outside _addr hash implementer = .ok r' ↔
      r.getManager (orSender sender _addr) = sender ∧ isERC165Interface hash = false ∧
        Accepted sender outside (orSender sender _addr) hash implementer ∧
        (r.setInterface (orSender sender _addr) hash implementer).emit
          (.interfaceImplementerSet (orSender sender _addr) hash implementer) = r' := by
  unfold setInterfaceImplementer
  rw [require_bind_eq_ok, require_bind_eq_ok, bind_eq_ok, Bool.not_eq_true]
  constructor
  · rintro ⟨hmanager, hhash, u, haccepts, h⟩
    exact ⟨hmanager, hhash, accepts_eq_ok.mp haccepts, pure_eq_ok.mp h⟩
  · rintro ⟨hmanager, hhash, haccepted, rfl⟩
    exact ⟨hmanager, hhash, (), accepts_eq_ok.mpr haccepted, rfl⟩

theorem setManager_eq_ok {_newManager : Address} :
    r.setManager sender addr _newManager = .ok r' ↔
      r.getManager addr = sender ∧
        { r with
          managers := Function.update r.managers addr
            (if _newManager = addr then 0 else _newManager) }.emit
          (.managerChanged addr _newManager) = r' := by
  unfold setManager
  rw [require_bind_eq_ok, pure_eq_ok]

theorem getManager_setManager (r : Registry) (addr newManager a : Address) :
    { r with
      managers := Function.update r.managers addr
        (if newManager = addr then 0 else newManager) }.getManager a =
      if addr = a then if newManager = 0 then addr else newManager else r.getManager a := by
  unfold getManager
  rcases eq_or_ne a addr with rfl | hne
  · simp only [Function.update_self, if_true]
    grind
  · simp only [Function.update_of_ne hne, if_neg hne.symm]

theorem interfaces_setInterface (r : Registry) (addr a : Address) (hash h : Bytes32)
    (implementer : Address) :
    (r.setInterface addr hash implementer).interfaces a h =
      if (addr, hash) = (a, h) then implementer else r.interfaces a h := by
  simp only [setInterface, Function.update_apply]
  grind

-- ---------------------------------------------------------------------------
-- The refinement
-- ---------------------------------------------------------------------------

/-- The registry shows what it accepted. -/
structure Follows (past : List Tx) (r : Registry) : Prop where
  logs : r.logs = events past
  manager : ∀ addr, r.getManager addr = managerOf r.logs addr
  implementer : ∀ addr hash, isERC165Interface hash = false →
    r.interfaces addr hash = implementerOf r.logs addr hash
  cached : ∀ contract id, r.erc165Cached contract id = (cachedVerdict past contract id).isSome
  verdict : ∀ contract id v, cachedVerdict past contract id = some v →
    r.interfaces contract id.toBytes32 = if v then contract else 0

theorem deployed_follows : Follows [] deployed where
  logs := rfl
  manager _ := rfl
  implementer _ _ _ := rfl
  cached _ _ := rfl
  verdict _ _ _ h := by cases h

theorem events_concat (past : List Tx) (tx : Tx) :
    events (past ++ [tx]) = events past ++ tx.event?.toList := by
  rw [events, List.filterMap_append, events]
  cases htx : tx.event? with
  | none => simp [htx]
  | some e => simp [htx]

theorem managerOf_concat (logs : List Event) (e : Event) (addr : Address) :
    managerOf (logs ++ [e]) addr = (sets Event.manager? addr e).getD (managerOf logs addr) := by
  rw [managerOf, latest_concat]
  cases sets Event.manager? addr e <;> rfl

theorem implementerOf_concat (logs : List Event) (e : Event) (addr : Address) (hash : Bytes32) :
    implementerOf (logs ++ [e]) addr hash =
      (sets Event.implementer? (addr, hash) e).getD (implementerOf logs addr hash) := by
  rw [implementerOf, latest_concat]
  cases sets Event.implementer? (addr, hash) e <;> rfl

/-- A transaction that caches nothing. -/
theorem cachedVerdict_concat_of_none (h : tx.verdict? = none) (past : List Tx) :
    cachedVerdict (past ++ [tx]) = cachedVerdict past := by
  funext contract id
  rw [cachedVerdict, latest_concat, sets_of_none h]
  rfl

theorem Follows.implementerSet (hr : Follows past r) {_addr : Address}
    (hcall : tx.call = .setInterfaceImplementer _addr hash implementer)
    (haddr : addr = orSender tx.sender _addr) (hhash : isERC165Interface hash = false) :
    Follows (past ++ [tx]) ((r.setInterface addr hash implementer).emit
      (.interfaceImplementerSet addr hash implementer)) := by
  have hevent : tx.event? = some (.interfaceImplementerSet addr hash implementer) := by
    rw [Tx.event?, hcall, haddr]
  have hnone : tx.verdict? = none := by rw [Tx.verdict?, hcall]
  refine ⟨?_, ?_, ?_, ?_, ?_⟩
  · rw [events_concat, hevent, ← hr.logs]
    rfl
  · intro a
    show r.getManager a = managerOf (r.logs ++ _) a
    rw [managerOf_concat, sets_of_none rfl]
    exact hr.manager a
  · intro a h hh
    show (r.setInterface addr hash implementer).interfaces a h = implementerOf (r.logs ++ _) a h
    rw [implementerOf_concat, interfaces_setInterface, hr.implementer a h hh]
    simp only [sets, Event.implementer?]
    split <;> rfl
  · rw [cachedVerdict_concat_of_none hnone]
    exact hr.cached
  · rw [cachedVerdict_concat_of_none hnone]
    intro contract id v hv
    show (r.setInterface addr hash implementer).interfaces contract id.toBytes32 = _
    rw [interfaces_setInterface, if_neg, hr.verdict contract id v hv]
    exact fun h => toBytes32_ne hhash id (Prod.mk.inj h).2

theorem Follows.managerSet (hr : Follows past r) {_newManager : Address}
    (hcall : tx.call = .setManager addr _newManager) :
    Follows (past ++ [tx]) ({ r with
      managers := Function.update r.managers addr
        (if _newManager = addr then 0 else _newManager) }.emit
      (.managerChanged addr _newManager)) := by
  have hevent : tx.event? = some (.managerChanged addr _newManager) := by rw [Tx.event?, hcall]
  have hnone : tx.verdict? = none := by rw [Tx.verdict?, hcall]
  refine ⟨?_, ?_, ?_, ?_, ?_⟩
  · rw [events_concat, hevent, ← hr.logs]
    rfl
  · intro a
    show { r with
      managers := Function.update r.managers addr
        (if _newManager = addr then 0 else _newManager) }.getManager a =
      managerOf (r.logs ++ [.managerChanged addr _newManager]) a
    rw [getManager_setManager, managerOf_concat, ← hr.manager a]
    simp only [sets, Event.manager?]
    split <;> rfl
  · intro a h hh
    show r.interfaces a h = implementerOf (r.logs ++ _) a h
    rw [implementerOf_concat, sets_of_none rfl]
    exact hr.implementer a h hh
  · rw [cachedVerdict_concat_of_none hnone]
    exact hr.cached
  · rw [cachedVerdict_concat_of_none hnone]
    exact hr.verdict

theorem Follows.cacheUpdated (hr : Follows past r) {id : Bytes4}
    (hcall : tx.call = .updateERC165Cache contract id) :
    Follows (past ++ [tx]) (r.updateERC165Cache tx.outside contract id) := by
  have hevent : tx.event? = none := by rw [Tx.event?, hcall]
  have hlogs : events (past ++ [tx]) = r.logs := by
    rw [events_concat, hevent, hr.logs]
    exact List.append_nil _
  have hverdict : ∀ c i, cachedVerdict (past ++ [tx]) c i =
      if (contract, id) = (c, i) then some (implementsERC165InterfaceNoCache tx.outside contract id)
      else cachedVerdict past c i := by
    intro c i
    rw [cachedVerdict, latest_concat, sets, Tx.verdict?, hcall]
    split
    · next j v hj =>
      cases hj
      split <;> rfl
    · next hj => cases hj
  have hinterfaces : ∀ a h, (r.updateERC165Cache tx.outside contract id).interfaces a h =
      if (contract, id.toBytes32) = (a, h) then
        if implementsERC165InterfaceNoCache tx.outside contract id then contract else 0
      else r.interfaces a h :=
    fun a h => interfaces_setInterface r contract a id.toBytes32 h _
  refine ⟨hlogs.symm, hr.manager, ?_, ?_, ?_⟩
  · intro a h hh
    rw [hinterfaces, if_neg fun heq => toBytes32_ne hh id (Prod.mk.inj heq).2.symm]
    exact hr.implementer a h hh
  · intro c i
    show Function.update r.erc165Cached contract
      (Function.update (r.erc165Cached contract) id true) c i = _
    rw [hverdict]
    simp only [Function.update_apply]
    split <;> grind [hr.cached c i]
  · intro c i v hv
    rw [hverdict] at hv
    rw [hinterfaces]
    split at hv
    · next heq =>
      cases heq
      rw [if_pos rfl, Option.some.inj hv]
    · next hne =>
      rw [if_neg, hr.verdict c i v hv]
      intro heq
      obtain ⟨rfl, hid⟩ := Prod.mk.inj heq
      rw [← Bytes4.toBytes4_toBytes32 id, hid, Bytes4.toBytes4_toBytes32] at hne
      exact hne rfl

/-- A transaction is accepted if what the past says authorises it. -/
theorem Follows.exec_iff (hr : Follows past r) (tx : Tx) :
    (∃ r', exec tx r = .ok r') ↔ Authorised (events past) tx := by
  rw [← hr.logs]
  obtain ⟨sender, outside, call⟩ := tx
  cases call with
  | setInterfaceImplementer _addr hash implementer =>
    simp only [exec, Authorised, setInterfaceImplementer_eq_ok, hr.manager]
    grind
  | setManager _addr _newManager =>
    simp only [exec, Authorised, setManager_eq_ok, hr.manager]
    grind
  | updateERC165Cache contract id => exact iff_of_true ⟨_, rfl⟩ trivial

theorem Follows.exec (hr : Follows past r) (h : Erc1820.exec tx r = .ok r') :
    Follows (past ++ [tx]) r' := by
  unfold Erc1820.exec at h
  split at h
  · next _addr hash implementer hcall =>
    obtain ⟨-, hhash, -, rfl⟩ := setInterfaceImplementer_eq_ok.mp h
    exact hr.implementerSet hcall rfl hhash
  · next _addr _newManager hcall =>
    obtain ⟨-, rfl⟩ := setManager_eq_ok.mp h
    exact hr.managerSet hcall
  · next contract id hcall =>
    cases h
    exact hr.cacheUpdated hcall

theorem Follows.run (hr : Follows past r) (txs : List Tx) :
    returned Erc1820.exec txs r = admitted past txs ∧
      Follows (past ++ admitted past txs) (applyAll Erc1820.exec txs r) := by
  induction txs generalizing past r with
  | nil => exact ⟨rfl, by rwa [admitted, List.append_nil]⟩
  | cons tx txs ih =>
    show _ ∧ Follows _ (applyAll Erc1820.exec txs (Calls.apply Erc1820.exec r tx))
    rw [admitted, returned]
    rcases hexec : Erc1820.exec tx r with e | r'
    · have hnot : ¬Authorised (events past) tx := by
        rw [← hr.exec_iff, hexec]
        simp
      rw [if_neg hnot, apply_of_error hexec]
      exact ih hr
    · rw [if_pos ((hr.exec_iff tx).mp ⟨r', hexec⟩), apply_of_ok hexec]
      obtain ⟨hreturned, hfollows⟩ := ih (hr.exec hexec)
      rw [List.append_assoc] at hfollows
      exact ⟨congrArg (tx :: ·) hreturned, hfollows⟩

/-- For the zero address the answer is the same either way. -/
theorem Follows.getInterfaceImplementer (hr : Follows past r) (sender : Address)
    (outside : Outside) (_addr : Address) (hash : Bytes32) :
    r.getInterfaceImplementer sender outside _addr hash =
      if isERC165Interface hash then
        if (cachedVerdict past (orSender sender _addr) hash.toBytes4).getD
            (implementsERC165InterfaceNoCache outside (orSender sender _addr) hash.toBytes4) then
          orSender sender _addr
        else 0
      else implementerOf r.logs (orSender sender _addr) hash := by
  unfold Registry.getInterfaceImplementer
  cases hhash : isERC165Interface hash with
  | false =>
    rw [if_neg Bool.false_ne_true, if_neg Bool.false_ne_true]
    exact hr.implementer _ hash hhash
  | true =>
    rw [if_pos rfl, if_pos rfl, implementsERC165Interface, hr.cached]
    cases hverdict : cachedVerdict past (orSender sender _addr) hash.toBytes4 with
    | none => simp
    | some v =>
      rw [hr.verdict _ _ v hverdict]
      cases v <;> grind

/-- **What the registry knows.** -/
theorem registry_follows (txs : List Tx) :
    let past := admitted [] txs
    let r := applyAll exec txs deployed
    returned exec txs deployed = past ∧
      r.logs = events past ∧
      (∀ addr, r.getManager addr = managerOf r.logs addr) ∧
      ∀ sender outside _addr hash,
        r.getInterfaceImplementer sender outside _addr hash =
          if isERC165Interface hash then
            if (cachedVerdict past (orSender sender _addr) hash.toBytes4).getD
                (implementsERC165InterfaceNoCache outside (orSender sender _addr)
                  hash.toBytes4) then
              orSender sender _addr
            else 0
          else implementerOf r.logs (orSender sender _addr) hash := by
  intro past r
  obtain ⟨hreturned, hfollows⟩ := deployed_follows.run txs
  exact ⟨hreturned, hfollows.logs, hfollows.manager, hfollows.getInterfaceImplementer⟩

-- ---------------------------------------------------------------------------
-- Who can change it
-- ---------------------------------------------------------------------------

/-- What an address has on record besides the cached verdicts. -/
structure SameRecord (addr : Address) (r r' : Registry) : Prop where
  manager : r'.getManager addr = r.getManager addr
  implementer : ∀ hash, isERC165Interface hash = false →
    r'.interfaces addr hash = r.interfaces addr hash

theorem exec_sameRecord (h : exec tx r = .ok r') (hsender : tx.sender ≠ r.getManager addr) :
    SameRecord addr r r' := by
  unfold exec at h
  split at h
  · next _addr hash implementer hcall =>
    obtain ⟨hmanager, -, -, rfl⟩ := setInterfaceImplementer_eq_ok.mp h
    refine ⟨rfl, fun hash' _ => ?_⟩
    show (r.setInterface (orSender tx.sender _addr) hash implementer).interfaces addr hash' = _
    rw [interfaces_setInterface, if_neg]
    intro heq
    obtain ⟨rfl, -⟩ := Prod.mk.inj heq
    exact hsender hmanager.symm
  · next _addr _newManager hcall =>
    obtain ⟨hmanager, rfl⟩ := setManager_eq_ok.mp h
    refine ⟨?_, fun _ _ => rfl⟩
    refine (getManager_setManager r _addr _newManager addr).trans (if_neg ?_)
    rintro rfl
    exact hsender hmanager.symm
  · next contract id hcall =>
    cases h
    refine ⟨rfl, fun hash' hhash => ?_⟩
    refine (interfaces_setInterface r contract addr id.toBytes32 hash' _).trans (if_neg ?_)
    intro heq
    exact toBytes32_ne hhash id (Prod.mk.inj heq).2.symm

/-- **Only the manager.** -/
theorem unchanged_without_manager (r : Registry) (addr : Address) (txs : List Tx)
    (hsilent : ∀ tx ∈ txs, tx.sender ≠ r.getManager addr) :
    SameRecord addr r (applyAll exec txs r) := by
  induction txs generalizing r with
  | nil => exact ⟨rfl, fun _ _ => rfl⟩
  | cons tx txs ih =>
    rw [List.forall_mem_cons] at hsilent
    show SameRecord addr r (applyAll exec txs (Calls.apply exec r tx))
    rcases hexec : exec tx r with e | r'
    · rw [apply_of_error hexec]
      exact ih r hsilent.2
    · rw [apply_of_ok hexec]
      have hstep := exec_sameRecord hexec hsilent.1
      rw [← hstep.manager] at hsilent
      have hrest := ih r' hsilent.2
      exact ⟨hrest.manager.trans hstep.manager,
        fun hash hhash => (hrest.implementer hash hhash).trans (hstep.implementer hash hhash)⟩

/-- Answers nothing. -/
def silence : Outside where
  staticcall _ _ _ := ⟨true, []⟩
  canImplementInterfaceForAddress _ _ _ := none

theorem unchanged_without_manager_deployed :
    SameRecord 1 deployed (applyAll exec [⟨2, silence, .setManager 1 2⟩,
      ⟨3, silence, .setInterfaceImplementer 1 0x11 3⟩, ⟨2, silence, .setManager 2 1⟩] deployed) :=
  unchanged_without_manager deployed 1 _ (by decide)

end NeonTests.Erc1820
