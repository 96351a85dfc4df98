import NeonTests.Erc1820.Registry
import Mathlib.Data.List.Induction

/-!
# The ERC-1820 registry — the contracts of the test

`ContractA` lets its owner name its manager, `ContractManager` registers `ContractA` for
`sayHello`, and `ContractB` asks the registry whom to call. Anyone else may use the registry
meanwhile.

* `callSayHello_spec` — `ContractB` greets once the manager was named and then registered, and
  at no other time.
-/

namespace NeonTests.Erc1820

open Calls Fallible Registry Solidity

/-- `keccak256(abi.encodePacked("sayHello"))` -/
def sayHelloHash : Bytes32 := 0x11de7a4089ee2464c7bbaa74b09ff2836be5649df53a2b704af0039bea600db3

structure Deployment where
  owner : Address
  contractA : Address
  contractManager : Address
  contractA_ne_zero : contractA ≠ 0
  contractManager_ne_zero : contractManager ≠ 0
  contractManager_ne : contractManager ≠ contractA

inductive Step
  | registry (tx : Tx)
  | setRegistryManager (sender managerAddress : Address)
  | registerInterface (outside : Outside)

namespace ContractA

def canImplementInterfaceForAddress (interfaceHash : Bytes32) : Bytes32 :=
  if interfaceHash = sayHelloHash then erc1820AcceptMagic else 0

def setRegistryManager (d : Deployment) (sender managerAddress : Address) (r : Registry) :
    Except Revert Registry := do
  require (sender = d.owner) "Not the owner"
  r.setManager d.contractA d.contractA managerAddress

def sayHello : String := "Hello from ContractA"

end ContractA

def ContractManager.registerInterface (d : Deployment) (outside : Outside) (r : Registry) :
    Except Revert Registry :=
  r.setInterfaceImplementer d.contractManager outside d.contractA sayHelloHash d.contractA

/-- `hello` is what contracts answer to `sayHello()`, if the call succeeds. -/
def ContractB.callSayHello (d : Deployment) (hello : Address → Option String) (self : Address)
    (outside : Outside) (r : Registry) : Except Revert String := do
  let implementerAddress := r.getInterfaceImplementer self outside d.contractA sayHelloHash
  require (implementerAddress ≠ 0) "Implementer for sayHello interface not registered"
  match hello implementerAddress with
  | none => throw (.message "Call to the implementer failed")
  | some text => return text

def perform (d : Deployment) : Step → Registry → Except Revert Registry
  | .registry tx, r => exec tx r
  | .setRegistryManager sender managerAddress, r =>
    ContractA.setRegistryManager d sender managerAddress r
  | .registerInterface outside, r => ContractManager.registerInterface d outside r

-- ---------------------------------------------------------------------------
-- What can happen
-- ---------------------------------------------------------------------------

/-- The two contracts do nothing but what their code does; the owner names `ContractManager`. -/
def Possible (d : Deployment) : Step → Prop
  | .registry tx => tx.sender ≠ d.contractA ∧ tx.sender ≠ d.contractManager
  | .setRegistryManager sender managerAddress =>
    sender = d.owner → managerAddress = d.contractManager
  | .registerInterface outside => ∀ hash addr,
    outside.canImplementInterfaceForAddress d.contractA hash addr =
      some (ContractA.canImplementInterfaceForAddress hash)

/-- The owner named the manager. -/
def HandedOver (d : Deployment) (steps : List Step) : Prop :=
  ∃ managerAddress, .setRegistryManager d.owner managerAddress ∈ steps

/-- And the manager registered after that. -/
def Registered (d : Deployment) (steps : List Step) : Prop :=
  ∃ before after outside,
    steps = before ++ .registerInterface outside :: after ∧ HandedOver d before

variable {d : Deployment} {r r' : Registry} {steps : List Step} {step : Step}

theorem registered_concat :
    Registered d (steps ++ [step]) ↔
      Registered d steps ∨ HandedOver d steps ∧ ∃ outside, step = .registerInterface outside := by
  constructor
  · rintro ⟨before, after, outside, hsteps, hhanded⟩
    rcases List.eq_nil_or_concat after with rfl | ⟨after, last, rfl⟩
    · obtain ⟨rfl, hlast⟩ := List.append_inj' hsteps rfl
      exact Or.inr ⟨hhanded, outside, List.singleton_inj.mp hlast⟩
    · rw [List.concat_eq_append, ← List.cons_append, ← List.append_assoc] at hsteps
      obtain ⟨rfl, -⟩ := List.append_inj' hsteps rfl
      exact Or.inl ⟨before, after, outside, rfl, hhanded⟩
  · rintro (⟨before, after, outside, rfl, hhanded⟩ | ⟨hhanded, outside, rfl⟩)
    · exact ⟨before, after ++ [step], outside, by simp, hhanded⟩
    · exact ⟨steps, [], outside, rfl, hhanded⟩

theorem handedOver_concat :
    HandedOver d (steps ++ [step]) ↔
      HandedOver d steps ∨ ∃ managerAddress, step = .setRegistryManager d.owner managerAddress := by
  simp [HandedOver, exists_or, eq_comm]

-- ---------------------------------------------------------------------------
-- The invariant
-- ---------------------------------------------------------------------------

structure Inv (d : Deployment) (steps : List Step) (r : Registry) : Prop where
  before : ¬HandedOver d steps → r.getManager d.contractA = d.contractA
  handed : HandedOver d steps → r.getManager d.contractA = d.contractManager
  unregistered : ¬Registered d steps → r.interfaces d.contractA sayHelloHash = 0
  registered : Registered d steps → r.interfaces d.contractA sayHelloHash = d.contractA

theorem sayHelloHash_not_erc165 : isERC165Interface sayHelloHash = false := by decide

theorem Inv.manager_cases (h : Inv d steps r) :
    r.getManager d.contractA = d.contractA ∨ r.getManager d.contractA = d.contractManager := by
  by_cases hhanded : HandedOver d steps
  · exact Or.inr (h.handed hhanded)
  · exact Or.inl (h.before hhanded)

theorem SameRecord.refl (addr : Address) (r : Registry) : SameRecord addr r r :=
  ⟨rfl, fun _ _ => rfl⟩

theorem Inv.congr (h : Inv d steps r) (hsame : SameRecord d.contractA r r')
    (hhanded : HandedOver d (steps ++ [step]) ↔ HandedOver d steps)
    (hregistered : Registered d (steps ++ [step]) ↔ Registered d steps) :
    Inv d (steps ++ [step]) r' where
  before hnot := hsame.manager.trans (h.before (mt hhanded.mpr hnot))
  handed hsteps := hsame.manager.trans (h.handed (hhanded.mp hsteps))
  unregistered hnot := (hsame.implementer _ sayHelloHash_not_erc165).trans
    (h.unregistered (mt hregistered.mpr hnot))
  registered hsteps := (hsame.implementer _ sayHelloHash_not_erc165).trans
    (h.registered (hregistered.mp hsteps))

theorem Inv.registryStep (h : Inv d steps r) {tx : Tx} (hpossible : Possible d (.registry tx)) :
    Inv d (steps ++ [.registry tx]) (Calls.apply (perform d) r (.registry tx)) := by
  refine h.congr ?_ (by simp [handedOver_concat]) (by simp [registered_concat])
  have hsender : ∀ t ∈ [tx], t.sender ≠ r.getManager d.contractA := by
    rw [List.forall_mem_singleton]
    rcases h.manager_cases with hmanager | hmanager <;> rw [hmanager]
    · exact hpossible.1
    · exact hpossible.2
  cases hexec : exec tx r with
  | error e =>
    rw [Calls.apply_of_error (show perform d (.registry tx) r = .error e from hexec)]
    exact .refl ..
  | ok r' =>
    rw [Calls.apply_of_ok (show perform d (.registry tx) r = .ok r' from hexec)]
    exact exec_sameRecord hexec (hsender tx (List.mem_singleton_self tx))

theorem Inv.setRegistryManagerStep (h : Inv d steps r) {sender managerAddress : Address}
    (hpossible : Possible d (.setRegistryManager sender managerAddress)) :
    Inv d (steps ++ [.setRegistryManager sender managerAddress])
      (Calls.apply (perform d) r (.setRegistryManager sender managerAddress)) := by
  have hregistered : Registered d (steps ++ [.setRegistryManager sender managerAddress]) ↔
      Registered d steps := by simp [registered_concat]
  have hhanded : HandedOver d (steps ++ [.setRegistryManager sender managerAddress]) ↔
      HandedOver d steps ∨ sender = d.owner := by simp [handedOver_concat]
  cases hexec : perform d (.setRegistryManager sender managerAddress) r with
  | error e =>
    rw [Calls.apply_of_error hexec]
    refine h.congr (.refl ..) ?_ hregistered
    rw [hhanded, or_iff_left_iff_imp]
    rintro rfl
    -- the owner is only refused when the manager is another one already
    by_contra hnot
    have hok : perform d (.setRegistryManager d.owner managerAddress) r = .ok _ :=
      require_bind_eq_ok.mpr ⟨rfl, setManager_eq_ok.mpr ⟨h.before hnot, rfl⟩⟩
    rw [hexec] at hok
    cases hok
  | ok r' =>
    rw [Calls.apply_of_ok hexec]
    obtain ⟨rfl, hset⟩ := require_bind_eq_ok.mp hexec
    obtain ⟨-, rfl⟩ := setManager_eq_ok.mp hset
    obtain rfl := hpossible rfl
    refine ⟨fun hnot => absurd (Or.inr rfl) (mt hhanded.mpr hnot), fun _ => ?_, ?_, ?_⟩
    · refine (getManager_setManager r d.contractA d.contractManager d.contractA).trans ?_
      rw [if_pos rfl, if_neg d.contractManager_ne_zero]
    · exact fun hnot => h.unregistered (mt hregistered.mpr hnot)
    · exact fun hsteps => h.registered (hregistered.mp hsteps)

theorem Inv.registerInterfaceStep (h : Inv d steps r) {outside : Outside}
    (hpossible : Possible d (.registerInterface outside)) :
    Inv d (steps ++ [.registerInterface outside])
      (Calls.apply (perform d) r (.registerInterface outside)) := by
  have hhanded : HandedOver d (steps ++ [.registerInterface outside]) ↔ HandedOver d steps := by
    simp [handedOver_concat]
  have haddr : orSender d.contractManager d.contractA = d.contractA := if_neg d.contractA_ne_zero
  by_cases hsteps : HandedOver d steps
  · have hregistered : Registered d (steps ++ [.registerInterface outside]) :=
      registered_concat.mpr (Or.inr ⟨hsteps, outside, rfl⟩)
    have haccepted : Accepted d.contractManager outside d.contractA sayHelloHash d.contractA :=
      Or.inr (Or.inr ((hpossible sayHelloHash d.contractA).trans (congrArg some (if_pos rfl))))
    have hok : perform d (.registerInterface outside) r = .ok _ :=
      setInterfaceImplementer_eq_ok.mpr
        ⟨by rw [haddr, h.handed hsteps], sayHelloHash_not_erc165, by rwa [haddr], rfl⟩
    rw [Calls.apply_of_ok hok, haddr]
    refine ⟨fun hnot => absurd hsteps (mt hhanded.mpr hnot), fun _ => h.handed hsteps,
      fun hnot => absurd hregistered hnot, fun _ => ?_⟩
    exact (interfaces_setInterface r ..).trans (if_pos rfl)
  · have herror : ∃ e, perform d (.registerInterface outside) r = .error e := by
      cases hexec : perform d (.registerInterface outside) r with
      | error e => exact ⟨e, rfl⟩
      | ok r' =>
        obtain ⟨hmanager, -⟩ := setInterfaceImplementer_eq_ok.mp hexec
        rw [haddr, h.before hsteps] at hmanager
        exact absurd hmanager.symm d.contractManager_ne
    obtain ⟨e, herror⟩ := herror
    rw [Calls.apply_of_error herror]
    exact h.congr (.refl ..) hhanded (by simp [registered_concat, hsteps])

theorem Inv.performed (h : Inv d steps r) (hpossible : Possible d step) :
    Inv d (steps ++ [step]) (Calls.apply (perform d) r step) := by
  cases step with
  | registry tx => exact h.registryStep hpossible
  | setRegistryManager sender managerAddress => exact h.setRegistryManagerStep hpossible
  | registerInterface outside => exact h.registerInterfaceStep hpossible

theorem inv_deployed (d : Deployment) : Inv d [] deployed where
  before _ := rfl
  handed h := by simp [HandedOver] at h
  unregistered _ := rfl
  registered h := by simp [Registered] at h

theorem inv_run (d : Deployment) (hpossible : ∀ step ∈ steps, Possible d step) :
    Inv d steps (applyAll (perform d) steps deployed) := by
  induction steps using List.reverseRecOn with
  | nil => exact inv_deployed d
  | append_singleton steps step ih =>
    rw [List.forall_mem_append, List.forall_mem_singleton] at hpossible
    rw [applyAll, List.foldl_concat]
    exact (ih hpossible.1).performed hpossible.2

/-- **Whom `ContractB` greets from.** -/
theorem callSayHello_spec (d : Deployment) (steps : List Step)
    (hpossible : ∀ step ∈ steps, Possible d step) (hello : Address → Option String)
    (hhello : hello d.contractA = some ContractA.sayHello) (self : Address) (outside : Outside) :
    let r := applyAll (perform d) steps deployed
    (Registered d steps →
      ContractB.callSayHello d hello self outside r = .ok "Hello from ContractA") ∧
    (¬Registered d steps →
      ContractB.callSayHello d hello self outside r =
        .error (.message "Implementer for sayHello interface not registered")) := by
  intro r
  have hinv := inv_run d hpossible
  have himplementer : r.getInterfaceImplementer self outside d.contractA sayHelloHash =
      r.interfaces d.contractA sayHelloHash := by
    rw [getInterfaceImplementer, sayHelloHash_not_erc165, orSender, if_neg d.contractA_ne_zero]
    rfl
  unfold ContractB.callSayHello
  rw [himplementer]
  refine ⟨fun hregistered => ?_, fun hnot => ?_⟩
  · rw [hinv.registered hregistered]
    refine require_bind_eq_ok.mpr ⟨d.contractA_ne_zero, ?_⟩
    simp only [hhello]
    rfl
  · rw [hinv.unregistered hnot]
    rfl

def sampleDeployment : Deployment where
  owner := 1
  contractA := 2
  contractManager := 3
  contractA_ne_zero := by decide
  contractManager_ne_zero := by decide
  contractManager_ne := by decide

/-- `ContractA` answers, nobody else does. -/
def contractAOnly : Outside where
  staticcall _ _ _ := ⟨true, []⟩
  canImplementInterfaceForAddress contract hash _ :=
    if contract = 2 then some (ContractA.canImplementInterfaceForAddress hash) else none

theorem callSayHello_sampleDeployment :
    ContractB.callSayHello sampleDeployment (fun a => if a = 2 then some ContractA.sayHello else none)
      4 contractAOnly (applyAll (perform sampleDeployment)
        [.setRegistryManager 1 3, .registerInterface contractAOnly] deployed) =
      .ok "Hello from ContractA" := by
  have hpossible : ∀ step ∈ [Step.setRegistryManager 1 3, .registerInterface contractAOnly],
      Possible sampleDeployment step := by
    rw [List.forall_mem_cons, List.forall_mem_singleton]
    exact ⟨fun _ => rfl, fun _ _ => rfl⟩
  refine (callSayHello_spec sampleDeployment _ hpossible _ rfl 4 contractAOnly).1 ?_
  exact ⟨[.setRegistryManager 1 3], [], contractAOnly, rfl, 3, List.mem_singleton_self _⟩

end NeonTests.Erc1820
