import NeonTests.WrappedToken.Definitions

/-!
# Wrapped tokens — solvency

Every token in circulation is backed by native currency the contract holds, over
every run of either contract, payouts that call back included.

* `Owes` — the invariant, open in the middle of a call: what the contract holds
  beyond the balances is `extra`, what was forced in, and `due`, what the call
  has taken in or written off and not settled yet;
* `credit_settles`, `debit_owes` — the two statements that move `due`;
* `Keeps` — what the machine needs of a contract, shown for both;
* `exec_grown` — every action keeps the invariant, by induction on the actions
  nested in it;
* `solvency` — the result over whole runs.
-/

namespace NeonTests.WrappedToken

open Ledger Scripts Solidity

section Statements

variable {Address : Type} [DecidableEq Address] {s : State Address}

/-- `balanceOf[a] += x` that fits, by either compiler. -/
theorem exec_creditBalance (ar : Arithmetic) {a : Address} {x : Uint256}
    (hfit : (s.world.balanceOf a).toNat + x.toNat < 2 ^ 256) :
    exec (creditBalance ar a x) s = (.ok (), { s with
      world := { s.world with
        balanceOf := Function.update s.world.balanceOf a (s.world.balanceOf a + x) }
      checks := s.checks ++ [.add (s.world.balanceOf a) x] }) := by
  cases ar with
  | unchecked => rfl
  | checked =>
    have hadd : checkedAdd (s.world.balanceOf a) x = .ok (s.world.balanceOf a + x) :=
      if_pos hfit
    show exec ((liftM (checkedAdd (s.world.balanceOf a) x) : Contract Address Uint256) >>=
      fun new => setBalance a new) _ = _
    rw [exec_bind, exec_liftM, hadd]
    rfl

theorem exec_debitBalance (ar : Arithmetic) {a : Address} {x : Uint256}
    (hfit : x.toNat ≤ (s.world.balanceOf a).toNat) :
    exec (debitBalance ar a x) s = (.ok (), { s with
      world := { s.world with
        balanceOf := Function.update s.world.balanceOf a (s.world.balanceOf a - x) }
      checks := s.checks ++ [.sub (s.world.balanceOf a) x] }) := by
  cases ar with
  | unchecked => rfl
  | checked =>
    have hsub : checkedSub (s.world.balanceOf a) x = .ok (s.world.balanceOf a - x) :=
      if_pos hfit
    show exec ((liftM (checkedSub (s.world.balanceOf a) x) : Contract Address Uint256) >>=
      fun new => setBalance a new) _ = _
    rw [exec_bind, exec_liftM, hsub]
    rfl

theorem exec_debitAllowance (ar : Arithmetic) {src guy : Address} {x : Uint256}
    (hfit : x.toNat ≤ (s.world.allowance src guy).toNat) :
    exec (debitAllowance ar src guy x) s = (.ok (), { s with
      world := { s.world with
        allowance := Function.update s.world.allowance src
          (Function.update (s.world.allowance src) guy (s.world.allowance src guy - x)) }
      checks := s.checks ++ [.sub (s.world.allowance src guy) x] }) := by
  cases ar with
  | unchecked => rfl
  | checked =>
    have hsub : checkedSub (s.world.allowance src guy) x =
        .ok (s.world.allowance src guy - x) := if_pos hfit
    show exec ((liftM (checkedSub (s.world.allowance src guy) x) : Contract Address Uint256) >>=
      fun new => setAllowance src guy new) _ = _
    rw [exec_bind, exec_liftM, hsub]
    rfl

end Statements

variable {Address : Type} [Fintype Address] {token : Address}

-- ---------------------------------------------------------------------------
-- The invariant
-- ---------------------------------------------------------------------------

/-- The sum of all token balances. -/
def World.minted (w : World Address) : Nat := total fun a => (w.balanceOf a).toNat

/-- No operation so far wrapped around or was short of funds. -/
def State.Sound (s : State Address) : Prop := ∀ c ∈ s.checks, c.Sound

structure Owes (token : Address) (extra due : Nat) (s : State Address) : Prop where
  backed : s.world.minted + extra + due = s.world.native token
  supply : total s.world.native < 2 ^ 256
  sound : s.Sound

variable {extra due : Nat} {s : State Address}

theorem Owes.native_lt (h : Owes token extra due s) : s.world.native token < 2 ^ 256 :=
  lt_of_le_of_lt (le_total _ token) h.supply

/-- One balance, with all that is due, is within what the contract holds. -/
theorem Owes.balance_le (h : Owes token extra due s) (a : Address) :
    (s.world.balanceOf a).toNat + due ≤ s.world.native token := by
  have hle : (s.world.balanceOf a).toNat ≤ s.world.minted :=
    le_total (fun a => (s.world.balanceOf a).toNat) a
  have := h.backed
  omega

theorem Owes.note {c : Check} (h : Owes token extra due s) (hc : c.Sound) :
    Owes token extra due { s with checks := s.checks ++ [c] } where
  backed := h.backed
  supply := h.supply
  sound := by
    intro d hd
    rcases List.mem_append.mp hd with hd | hd
    · exact h.sound d hd
    · rw [List.mem_singleton.mp hd]
      exact hc

theorem emit_spec (e : Event Address) :
    Triple (Owes token extra due) (emit e) (fun _ => Owes token extra due) State.Sound :=
  Triple.write fun _ h => ⟨h.backed, h.supply, h.sound⟩

/-- The invariant with nothing due, after others may have forced funds in; if
`calm`, nobody did. -/
def Grown (token : Address) (extra : Nat) (calm : Prop) (s : State Address) : Prop :=
  ∃ extra', extra ≤ extra' ∧ (calm → extra' = extra) ∧ Owes token extra' 0 s

theorem Owes.grown {calm : Prop} (h : Owes token extra 0 s) : Grown token extra calm s :=
  ⟨extra, le_rfl, fun _ => rfl, h⟩

theorem nonPayable_spec (msg : Msg Address) :
    Triple (Owes token extra msg.value.toNat) (nonPayable msg) (fun _ => Owes token extra 0)
      State.Sound := by
  refine (Triple.ensure fun _ h => h.sound).conseq (fun _ h => h) ?_ (fun _ h => h)
  rintro _ s ⟨h, hvalue⟩
  rw [hvalue] at h
  exact h

theorem emit_grown (e : Event Address) {calm : Prop} :
    Triple (Grown token extra calm) (emit e) (fun _ => Grown token extra calm) State.Sound := by
  refine Triple.write ?_
  rintro s ⟨extra', hle, hcalm, h⟩
  exact ⟨extra', hle, hcalm, h.backed, h.supply, h.sound⟩

/-- A payable function. -/
theorem settled_grown {x : Contract Address Unit} {calm : Prop} {v : Nat}
    (hx : Triple (Owes token extra v) x (fun _ => Owes token extra 0) State.Sound) :
    Triple (Owes token extra v) x (fun _ => Grown token extra calm) State.Sound :=
  hx.conseq (fun _ h => h) (fun _ _ h => h.grown) (fun _ h => h)

/-- A function that is not payable and makes no payout. -/
theorem nonPayable_discard {α : Type} (msg : Msg Address) {x : Contract Address α} {calm : Prop}
    (hx : Triple (Owes token extra 0) x (fun _ => Owes token extra 0) State.Sound) :
    Triple (Owes token extra msg.value.toNat) (do nonPayable msg; discard x)
      (fun _ => Grown token extra calm) State.Sound :=
  Triple.bind _ (nonPayable_spec msg) fun _ =>
    Triple.bind _ hx fun _ => Triple.pure fun _ h => h.grown

theorem read_spec {α : Type} (f : State Address → α) :
    Triple (Owes token extra 0) (read f : Contract Address α) (fun _ => Owes token extra 0)
      State.Sound :=
  Triple.read fun _ h => h

variable [DecidableEq Address]

theorem minted_update (w : World Address) (a : Address) (x : Uint256) :
    (total fun b => (Function.update w.balanceOf a x b).toNat) + (w.balanceOf a).toNat =
      w.minted + x.toNat := by
  rw [toNat_update]
  exact total_update _ a x.toNat

-- ---------------------------------------------------------------------------
-- Statements
-- ---------------------------------------------------------------------------

theorem setAllowance_spec (src guy : Address) (x : Uint256) :
    Triple (Owes token extra due) (setAllowance src guy x) (fun _ => Owes token extra due)
      State.Sound :=
  Triple.write fun _ h => ⟨h.backed, h.supply, h.sound⟩

variable {due' : Nat}

/-- `balanceOf[a] += x` settles `x` that is due. It cannot fail: the new balance
is within what the contract holds, and that is within the width. -/
theorem credit_settles (ar : Arithmetic) (a : Address) (x : Uint256) (hdue : due + x.toNat = due') :
    Triple (Owes token extra due') (creditBalance ar a x)
      (fun _ => Owes token extra due) (fun _ => False) := by
  intro s h
  have hle := h.balance_le a
  have hlt := h.native_lt
  have hfit : (s.world.balanceOf a).toNat + x.toNat < 2 ^ 256 := by omega
  rw [exec_creditBalance ar hfit]
  have hnoted := h.note (c := .add (s.world.balanceOf a) x) hfit
  refine ⟨?_, hnoted.supply, hnoted.sound⟩
  have hsum := minted_update s.world a (s.world.balanceOf a + x)
  rw [BitVec.toNat_add, Nat.mod_eq_of_lt hfit] at hsum
  have hbacked := h.backed
  show (total fun b => (Function.update s.world.balanceOf a _ b).toNat) + extra + due =
    s.world.native token
  omega

/-- `balanceOf[a] -= x` leaves `x` due. -/
theorem debit_owes (ar : Arithmetic) (a : Address) (x : Uint256) (hdue : due + x.toNat = due') :
    Triple (fun s => Owes token extra due s ∧ x ≤ s.world.balanceOf a) (debitBalance ar a x)
      (fun _ => Owes token extra due') (fun _ => False) := by
  rintro s ⟨h, hx⟩
  have hfit : x.toNat ≤ (s.world.balanceOf a).toNat := hx
  rw [exec_debitBalance ar hfit]
  have hnoted := h.note (c := .sub (s.world.balanceOf a) x) hfit
  refine ⟨?_, hnoted.supply, hnoted.sound⟩
  have hsum := minted_update s.world a (s.world.balanceOf a - x)
  rw [BitVec.toNat_sub_of_le hx] at hsum
  have hbacked := h.backed
  show (total fun b => (Function.update s.world.balanceOf a _ b).toNat) + extra + due' =
    s.world.native token
  omega

/-- `allowance[src][guy] -= x` is no matter of balances, and an allowance that
covers `x` does not wrap. -/
theorem debitAllowance_spec (ar : Arithmetic) (src guy : Address) (x : Uint256)
    (fact : (Address → Uint256) → Prop) :
    Triple (fun s => (Owes token extra due s ∧ fact s.world.balanceOf) ∧
        x ≤ s.world.allowance src guy)
      (debitAllowance ar src guy x)
      (fun _ s => Owes token extra due s ∧ fact s.world.balanceOf) (fun _ => False) := by
  rintro s ⟨⟨h, hfact⟩, hx⟩
  rw [exec_debitAllowance ar hx]
  have hnoted := h.note (c := .sub (s.world.allowance src guy) x) hx
  exact ⟨⟨hnoted.backed, hnoted.supply, hnoted.sound⟩, hfact⟩

-- ---------------------------------------------------------------------------
-- Functions
-- ---------------------------------------------------------------------------

/-- What the code may assume of a payout. -/
def PayKeeps (token : Address) (pay : Address → Uint256 → Contract Address Unit)
    (calm : Prop) : Prop :=
  ∀ recipient wad extra, Triple (Owes token extra wad.toNat) (pay recipient wad)
    (fun _ => Grown token extra calm) State.Sound

theorem deposit_spec (ar : Arithmetic) (msg : Msg Address) :
    Triple (Owes token extra msg.value.toNat) (deposit ar msg) (fun _ => Owes token extra 0)
      State.Sound := by
  refine Triple.bind (fun _ => Owes token extra 0) ?_ (fun _ => emit_spec _)
  exact (credit_settles ar msg.sender msg.value (Nat.zero_add _)).conseq (fun _ h => h)
    (fun _ _ h => h) (fun _ h => h.elim)

/-- A function that settles what it takes keeps the invariant, payout and all. -/
theorem withdrawTo_spec (ar : Arithmetic) {pay : Address → Uint256 → Contract Address Unit}
    {calm : Prop} (hpay : PayKeeps token pay calm) (msg : Msg Address) (recipient : Address)
    (wad : Uint256) :
    Triple (Owes token extra 0) (withdrawTo ar pay msg recipient wad)
      (fun _ => Grown token extra calm) State.Sound := by
  refine Triple.bind (fun balance s => Owes token extra 0 s ∧ balance = s.world.balanceOf msg.sender)
    (Triple.read fun _ h => ⟨h, rfl⟩) ?_
  intro balance
  refine Triple.bind _ (Triple.ensure fun _ h => h.1.sound) ?_
  intro _
  refine Triple.bind (fun _ => Owes token extra wad.toNat) ?_ ?_
  · refine (debit_owes ar msg.sender wad (Nat.zero_add _)).conseq ?_ (fun _ _ h => h)
      (fun _ h => h.elim)
    rintro s ⟨⟨h, rfl⟩, hle⟩
    exact ⟨h, hle⟩
  · intro _
    exact Triple.bind _ (hpay recipient wad extra) fun _ => emit_grown _

theorem spendAllowance_spec (ar : Arithmetic) (limited : Uint256 → Bool) (src guy : Address)
    (wad : Uint256) (fact : (Address → Uint256) → Prop) :
    Triple (fun s => Owes token extra due s ∧ fact s.world.balanceOf)
      (spendAllowance ar limited src guy wad)
      (fun _ s => Owes token extra due s ∧ fact s.world.balanceOf) State.Sound := by
  refine Triple.bind (fun allowed s => (Owes token extra due s ∧ fact s.world.balanceOf) ∧
    allowed = s.world.allowance src guy) (Triple.read fun _ h => ⟨h, rfl⟩) ?_
  intro allowed
  refine Triple.ite (fun _ => ?_) (fun _ => Triple.pure fun _ h => h.1)
  refine Triple.bind _ (Triple.ensure fun _ h => h.1.1.sound) ?_
  intro _
  refine (debitAllowance_spec ar src guy wad fact).conseq ?_ (fun _ _ h => h) (fun _ h => h.elim)
  rintro s ⟨⟨h, rfl⟩, hle⟩
  exact ⟨h, hle⟩

/-- A transfer moves `wad` from one balance to another, or to itself. -/
theorem transferFrom_spec (ar : Arithmetic) (limited : Uint256 → Bool) (msg : Msg Address)
    (src dst : Address) (wad : Uint256) :
    Triple (Owes token extra 0) (transferFrom ar limited msg src dst wad)
      (fun _ => Owes token extra 0) State.Sound := by
  refine Triple.bind (fun balance s => Owes token extra 0 s ∧ balance = s.world.balanceOf src)
    (Triple.read fun _ h => ⟨h, rfl⟩) ?_
  intro balance
  refine Triple.bind _ (Triple.ensure fun _ h => h.1.sound) ?_
  intro _
  refine Triple.bind (fun _ s => Owes token extra 0 s ∧ wad ≤ s.world.balanceOf src) ?_ ?_
  · refine (spendAllowance_spec ar limited src msg.sender wad (fun b => wad ≤ b src)).conseq ?_
      (fun _ _ h => h) (fun _ h => h)
    rintro s ⟨⟨h, rfl⟩, hle⟩
    exact ⟨h, hle⟩
  intro _
  refine Triple.bind _ ((debit_owes ar src wad rfl).conseq (fun _ h => h) (fun _ _ h => h)
    (fun _ h => h.elim)) ?_
  intro _
  refine Triple.bind _ ((credit_settles ar dst wad rfl).conseq (fun _ h => h) (fun _ _ h => h)
    (fun _ h => h.elim)) ?_
  intro _
  exact Triple.bind _ (emit_spec _) fun _ => Triple.pure fun _ h => h

theorem approve_spec (msg : Msg Address) (guy : Address) (wad : Uint256) :
    Triple (Owes token extra 0) (approve msg guy wad) (fun _ => Owes token extra 0)
      State.Sound := by
  refine Triple.bind _ (setAllowance_spec msg.sender guy wad) fun _ => ?_
  exact Triple.bind _ (emit_spec _) fun _ => Triple.pure fun _ h => h

-- ---------------------------------------------------------------------------
-- The two contracts
-- ---------------------------------------------------------------------------

/-- What the machine needs of a contract. -/
structure Keeps (token : Address) (t : Token Address) : Prop where
  constructor : ∀ msg extra, Triple (Owes token extra msg.value.toNat) (t.constructor msg)
    (fun _ => Owes token extra 0) State.Sound
  receive : ∀ msg extra, Triple (Owes token extra msg.value.toNat) (t.receive msg)
    (fun _ => Owes token extra 0) State.Sound
  dispatch : ∀ {pay calm}, PayKeeps token pay calm → ∀ msg data extra,
    Triple (Owes token extra msg.value.toNat) (t.dispatch pay msg data)
      (fun _ => Grown token extra calm) State.Sound

theorem keeps_wneon (token : Address) : Keeps token (Kind.wneon.code token) where
  constructor msg _ := nonPayable_spec msg
  receive msg _ := deposit_spec .unchecked msg
  dispatch {pay calm} hpay msg data extra := by
    have hdeposit : Triple (Owes token extra msg.value.toNat) (WNEON.deposit msg)
        (fun _ => Grown token extra calm) State.Sound := settled_grown (deposit_spec .unchecked msg)
    cases data with
    | plain => exact hdeposit
    | unknown => exact hdeposit
    | deposit => exact hdeposit
    | withdrawTo => exact hdeposit
    | withdraw wad =>
      exact Triple.bind _ (nonPayable_spec msg) fun _ => withdrawTo_spec .unchecked hpay msg _ wad
    | totalSupply => exact nonPayable_discard msg (read_spec _)
    | approve guy wad => exact nonPayable_discard msg (approve_spec msg guy wad)
    | transfer dst wad => exact nonPayable_discard msg (transferFrom_spec .unchecked _ msg _ dst wad)
    | transferFrom src dst wad =>
      exact nonPayable_discard msg (transferFrom_spec .unchecked _ msg src dst wad)
    | balanceOf a => exact nonPayable_discard msg (read_spec _)
    | allowance src guy => exact nonPayable_discard msg (read_spec _)

theorem keeps_wNativeChainToken (token : Address) :
    Keeps token (Kind.wNativeChainToken.code token) where
  constructor msg _ := deposit_spec .checked msg
  receive msg _ := Triple.fail fun _ h => h.sound
  dispatch {pay calm} hpay msg data extra := by
    cases data with
    | plain => exact Triple.fail fun _ h => h.sound
    | unknown => exact Triple.fail fun _ h => h.sound
    | deposit => exact settled_grown (deposit_spec .checked msg)
    | withdrawTo recipient wad =>
      exact Triple.bind _ (nonPayable_spec msg) fun _ =>
        withdrawTo_spec .checked hpay msg recipient wad
    | withdraw wad =>
      exact Triple.bind _ (nonPayable_spec msg) fun _ => withdrawTo_spec .checked hpay msg _ wad
    | totalSupply => exact nonPayable_discard msg (read_spec _)
    | approve guy wad => exact nonPayable_discard msg (approve_spec msg guy wad)
    | transfer dst wad => exact nonPayable_discard msg (transferFrom_spec .checked _ msg _ dst wad)
    | transferFrom src dst wad =>
      exact nonPayable_discard msg (transferFrom_spec .checked _ msg src dst wad)
    | balanceOf a => exact nonPayable_discard msg (read_spec _)
    | allowance src guy => exact nonPayable_discard msg (read_spec _)

theorem keeps (k : Kind) (token : Address) : Keeps token (k.code token) := by
  cases k with
  | wneon => exact keeps_wneon token
  | wNativeChainToken => exact keeps_wNativeChainToken token

-- ---------------------------------------------------------------------------
-- The machine
-- ---------------------------------------------------------------------------

omit [Fintype Address] in
/-- A transfer of native currency fails, or moves its amount. -/
theorem transferNative_spec (src dst : Address) (amount : Nat) {pre : State Address → Prop}
    {post : Unit → State Address → Prop} {bad : State Address → Prop}
    (hmove : ∀ s, pre s → amount ≤ s.world.native src → post () { s with world := { s.world with
      native := Ledger.transfer s.world.native src dst amount } })
    (hshort : ∀ s, pre s → s.world.native src < amount → bad s) :
    Triple pre (transferNative src dst amount) post bad := by
  intro s hs
  by_cases h : amount ≤ s.world.native src
  · have hrun : exec (transferNative src dst amount) s = (.ok (), { s with world := { s.world with
        native := Ledger.transfer s.world.native src dst amount } }) := if_pos h
    rw [hrun]
    exact hmove s hs h
  · have hrun : exec (transferNative src dst amount) s = (.error .empty, s) := if_neg h
    rw [hrun]
    exact hshort s hs (by omega)

/-- Value that comes in is due. -/
theorem transferNative_in {src : Address} (hsrc : src ≠ token) (amount : Nat)
    (hdue : due + amount = due') :
    Triple (Owes token extra due) (transferNative src token amount)
      (fun _ => Owes token extra due') State.Sound := by
  refine transferNative_spec _ _ _ ?_ (fun _ h _ => h.sound)
  intro s h hfunds
  refine ⟨?_, ?_, h.sound⟩
  · show s.world.minted + extra + due' = Ledger.transfer s.world.native src token amount token
    have := h.backed
    rw [transfer_dst hsrc]
    omega
  · show total (Ledger.transfer _ _ _ _) < _
    rw [total_transfer hfunds]
    exact h.supply

/-- What is due can be paid out: the funds are there. -/
theorem transferNative_out {recipient : Address} (hne : recipient ≠ token) (amount : Nat)
    (hdue : due + amount = due') :
    Triple (Owes token extra due') (transferNative token recipient amount)
      (fun _ => Owes token extra due) (fun _ => False) := by
  have hfunds : ∀ s, Owes token extra due' s → amount ≤ s.world.native token := by
    intro s h
    have := h.backed
    omega
  refine transferNative_spec _ _ _ ?_ ?_
  · intro s h _
    refine ⟨?_, ?_, h.sound⟩
    · show s.world.minted + extra + due = Ledger.transfer s.world.native token recipient amount token
      have := h.backed
      rw [transfer_src hne.symm]
      omega
    · show total (Ledger.transfer _ _ _ _) < _
      rw [total_transfer (hfunds s h)]
      exact h.supply
  · intro s h hshort
    have := hfunds s h
    omega

/-- A transfer to the token itself changes nothing. -/
theorem transferNative_self (amount : Nat) :
    Triple (Owes token extra due) (transferNative token token amount)
      (fun _ => Owes token extra due) State.Sound := by
  refine transferNative_spec _ _ _ ?_ (fun _ h _ => h.sound)
  intro s h hfunds
  refine ⟨?_, ?_, h.sound⟩
  · show s.world.minted + extra + due = Ledger.transfer s.world.native token token amount token
    rw [transfer_self hfunds]
    exact h.backed
  · show total (Ledger.transfer _ _ _ _) < _
    rw [total_transfer hfunds]
    exact h.supply

/-- Others may force funds in, but not take any out. -/
theorem transferNative_outside (src : Outside token) (dst : Address) (amount : Nat) :
    Triple (Owes token extra 0) (transferNative src.val dst amount)
      (fun _ => Grown token extra (dst = token → amount = 0)) State.Sound := by
  rcases eq_or_ne dst token with rfl | hne
  · refine (transferNative_in src.property amount (Nat.zero_add _)).conseq (fun _ h => h) ?_
      (fun _ h => h)
    intro _ s h
    have := h.backed
    refine ⟨extra + amount, by omega, ?_, by omega, h.supply, h.sound⟩
    intro hcalm
    rw [hcalm rfl, Nat.add_zero]
  · refine transferNative_spec _ _ _ ?_ (fun _ h _ => h.sound)
    intro s h hfunds
    refine Owes.grown ⟨?_, ?_, h.sound⟩
    · show s.world.minted + extra + 0 = Ledger.transfer s.world.native src dst amount token
      have hkept : Ledger.transfer s.world.native src dst amount token = s.world.native token := by
        simp only [Ledger.transfer, Function.update_of_ne hne.symm,
          Function.update_of_ne src.property.symm]
      rw [hkept]
      exact h.backed
    · show total (Ledger.transfer _ _ _ _) < _
      rw [total_transfer hfunds]
      exact h.supply

/-- A function on states that keeps the invariant. -/
def KeepsRun (token : Address) (run : State Address → State Address) (calm : Prop) : Prop :=
  ∀ extra s, Owes token extra 0 s → Grown token extra calm (run s)

/-- A payout is made from sufficient funds; what the recipient does then keeps
the invariant if its own calls do. -/
theorem payNative_keeps {t : Token Address} (ht : Keeps token t)
    {callbacks : State Address → State Address} {calm : Prop}
    (hcallbacks : KeepsRun token callbacks calm) (accepts : Bool) :
    PayKeeps token (payNative t token callbacks accepts) calm := by
  intro recipient wad extra
  refine Triple.bind (fun funds s => Owes token extra wad.toNat s ∧ funds = s.world.native token)
    (Triple.read fun _ h => ⟨h, rfl⟩) ?_
  intro funds
  refine Triple.bind (fun _ => Owes token extra wad.toNat) (Triple.write ?_) ?_
  · rintro s ⟨h, rfl⟩
    have hfunds : wad.toNat ≤ s.world.native token := by
      have := h.backed
      omega
    exact h.note (c := .payout _ wad) hfunds
  intro _
  rcases eq_or_ne recipient token with rfl | hne
  · refine Triple.bind _ (transferNative_self wad.toNat) ?_
    intro _
    rw [if_pos rfl]
    exact settled_grown (ht.receive ⟨recipient, wad⟩ extra)
  · refine Triple.bind _ ((transferNative_out hne wad.toNat (Nat.zero_add _)).conseq (fun _ h => h)
      (fun _ _ h => h) (fun _ h => h.elim)) ?_
    intro _
    rw [if_neg hne]
    refine Triple.bind (fun _ => Grown token extra calm) (Triple.write (hcallbacks extra)) ?_
    intro _
    refine (Triple.ensure ?_).conseq (fun _ h => h) (fun _ _ h => h.1) (fun _ h => h)
    rintro s ⟨_, _, _, h⟩
    exact h.sound

omit [DecidableEq Address] in
/-- A reverted call leaves the world as it was, a finished one keeps the
invariant. -/
theorem attempt_keeps {x : Contract Address Unit} {calm : Prop}
    (hx : ∀ extra, Triple (Owes token extra 0) x (fun _ => Grown token extra calm) State.Sound) :
    KeepsRun token (attempt x) calm := by
  intro extra s h
  have hends := hx extra s h
  unfold attempt
  generalize exec x s = out at hends ⊢
  rcases out with ⟨e | u, s'⟩
  · exact Owes.grown ⟨h.backed, h.supply, hends⟩
  · exact hends

theorem callToken_keeps {t : Token Address} (ht : Keeps token t)
    {pay : Address → Uint256 → Contract Address Unit} {calm : Prop}
    (hpay : PayKeeps token pay calm) (sender : Outside token) (value : Uint256)
    (data : Calldata Address) (extra : Nat) :
    Triple (Owes token extra 0) (callToken t token pay ⟨sender, value⟩ data)
      (fun _ => Grown token extra calm) State.Sound :=
  Triple.bind _ (transferNative_in sender.property value.toNat (Nat.zero_add _)) fun _ =>
    ht.dispatch hpay ⟨sender, value⟩ data extra

mutual

/-- Nothing is forced in: not by the action, and not by the ones nested in it. -/
def Action.Unforced : Action token → Prop
  | .move _ dst amount => dst = token → amount = 0
  | .call _ _ _ callbacks _ => AllUnforced callbacks

def AllUnforced : List (Action token) → Prop
  | [] => True
  | a :: rest => a.Unforced ∧ AllUnforced rest

end

mutual

/-- **One step.** Every action keeps the invariant, whatever its payout sets off. -/
theorem exec_grown {t : Token Address} (ht : Keeps token t) :
    ∀ a : Action token, KeepsRun token (a.exec t) a.Unforced
  | .move src dst amount => attempt_keeps fun _ => transferNative_outside src dst amount
  | .call sender value data callbacks accepts => by
    have hpay := payNative_keeps ht (execAll_grown ht callbacks) accepts
    exact attempt_keeps fun extra => callToken_keeps ht hpay sender value data extra

/-- **A run.** -/
theorem execAll_grown {t : Token Address} (ht : Keeps token t) :
    ∀ actions : List (Action token), KeepsRun token (execAll t actions) (AllUnforced actions)
  | [] => fun _ _ h => h.grown
  | a :: rest => by
    intro extra s h
    obtain ⟨mid, hle, hcalm, hmid⟩ := exec_grown ht a extra s h
    obtain ⟨last, hle', hcalm', hlast⟩ := execAll_grown ht rest mid _ hmid
    refine ⟨last, by omega, ?_, hlast⟩
    intro hall
    rw [hcalm' hall.2, hcalm hall.1]

end

-- ---------------------------------------------------------------------------
-- Withdrawing
-- ---------------------------------------------------------------------------

/-- A withdrawal within the caller's balance returns if the payout does. -/
theorem withdrawTo_returns (ar : Arithmetic) {pay : Address → Uint256 → Contract Address Unit}
    (msg : Msg Address) (recipient : Address) (wad : Uint256)
    (hpay : Triple (Owes token extra wad.toNat) (pay recipient wad) (fun _ _ => True)
      (fun _ => False)) :
    Triple (fun s => Owes token extra 0 s ∧ wad ≤ s.world.balanceOf msg.sender)
      (withdrawTo ar pay msg recipient wad) (fun _ _ => True) (fun _ => False) := by
  refine Triple.bind (fun balance s => (Owes token extra 0 s ∧
    wad ≤ s.world.balanceOf msg.sender) ∧ wad ≤ balance) (Triple.read fun _ h => ⟨h, h.2⟩) ?_
  intro balance
  refine Triple.bind _ (Triple.ensure_of fun _ h => h.2) ?_
  intro _
  refine Triple.bind _ ((debit_owes ar msg.sender wad (Nat.zero_add _)).conseq (fun _ h => h.1)
    (fun _ _ h => h) (fun _ h => h)) ?_
  intro _
  exact Triple.bind _ hpay fun _ => Triple.write fun _ _ => trivial

/-- A payout of what is due, to a recipient that accepts, returns. -/
theorem payNative_returns {t : Token Address} {recipient : Address} (hne : recipient ≠ token)
    (wad : Uint256) :
    Triple (Owes token extra wad.toNat) (payNative t token id true recipient wad)
      (fun _ _ => True) (fun _ => False) := by
  refine Triple.bind (fun funds s => Owes token extra wad.toNat s ∧ wad.toNat ≤ funds)
    (Triple.read ?_) ?_
  · intro s h
    have := h.backed
    exact ⟨h, by omega⟩
  intro funds
  refine Triple.bind (fun _ => Owes token extra wad.toNat) (Triple.write ?_) ?_
  · rintro s ⟨h, hfunds⟩
    exact h.note (c := .payout funds wad) hfunds
  intro _
  refine Triple.bind _ (transferNative_out hne wad.toNat (Nat.zero_add _)) ?_
  intro _
  rw [if_neg hne]
  refine Triple.bind (fun _ _ => True) (Triple.write fun _ _ => trivial) ?_
  intro _
  exact (Triple.ensure_of fun _ _ => rfl).conseq (fun _ _ => trivial) (fun _ _ h => h) (fun _ h => h)

/-- The caller's own withdrawal, with a recipient that just accepts. -/
theorem withdraw_returns (k : Kind) (caller : Outside token) (wad : Uint256)
    (h : Owes token extra 0 s) (hwad : wad ≤ s.world.balanceOf caller) :
    ∃ s', exec (callToken (k.code token) token (payNative (k.code token) token id true)
      ⟨caller, 0⟩ (.withdraw wad)) s = (.ok (), s') := by
  have hpay : Triple (Owes token extra wad.toNat)
      (payNative (k.code token) token id true caller wad) (fun _ _ => True) (fun _ => False) :=
    payNative_returns caller.property wad
  have hvalue : Triple (fun s => Owes token extra 0 s ∧ wad ≤ s.world.balanceOf caller)
      (ensure ((0 : Uint256) = 0) .empty : Contract Address Unit)
      (fun _ s => Owes token extra 0 s ∧ wad ≤ s.world.balanceOf caller) (fun _ => False) :=
    Triple.ensure_of fun _ _ => rfl
  have hbody (ar : Arithmetic) : Triple
      (fun s => Owes token extra 0 s ∧ wad ≤ s.world.balanceOf caller)
      (nonPayable ⟨caller, 0⟩ >>= fun _ => withdrawTo ar
        (payNative (k.code token) token id true) ⟨caller, 0⟩ caller wad)
      (fun _ _ => True) (fun _ => False) :=
    Triple.bind _ hvalue fun _ => withdrawTo_returns ar ⟨caller.val, 0⟩ caller wad hpay
  have hcall : Triple (fun s => Owes token extra 0 s ∧ wad ≤ s.world.balanceOf caller)
      (callToken (k.code token) token (payNative (k.code token) token id true) ⟨caller, 0⟩
        (.withdraw wad)) (fun _ _ => True) (fun _ => False) := by
    refine Triple.bind (fun _ s => Owes token extra 0 s ∧ wad ≤ s.world.balanceOf caller) ?_ ?_
    · refine transferNative_spec _ _ _ ?_ (fun _ _ hshort => absurd hshort (Nat.not_lt_zero _))
      rintro s ⟨h, hwad⟩ hfunds
      refine ⟨⟨?_, ?_, h.sound⟩, hwad⟩
      · show s.world.minted + extra + 0 = Ledger.transfer s.world.native caller token 0 token
        rw [transfer_dst caller.property]
        exact h.backed
      · show total (Ledger.transfer _ _ _ _) < _
        rw [total_transfer hfunds]
        exact h.supply
    · intro _
      cases k with
      | wneon => exact hbody .unchecked
      | wNativeChainToken => exact hbody .checked
  obtain ⟨⟨⟩, s', hrun, _⟩ := hcall.returns ⟨h, hwad⟩
  exact ⟨s', hrun⟩

-- ---------------------------------------------------------------------------
-- Runs
-- ---------------------------------------------------------------------------

/-- A fresh token owes what was sent to its constructor, and holds what its
address held before. -/
theorem deploy_grown {t : Token Address} (ht : Keeps token t) {creator : Outside token}
    {value : Uint256} {native : Address → Nat} (hsupply : total native < 2 ^ 256)
    {s₀ : State Address} (h : deploy t creator value native = some s₀) :
    Owes token (native token) 0 s₀ := by
  have hinit : Owes token (native token) 0
      (⟨⟨native, fun _ => 0, fun _ _ => 0, []⟩, []⟩ : State Address) := by
    refine ⟨?_, hsupply, nofun⟩
    have hzero : World.minted (⟨native, fun _ => 0, fun _ _ => 0, []⟩ : World Address) = 0 :=
      total_zero
    show World.minted _ + _ + 0 = native token
    rw [hzero]
    omega
  have hvalue : Triple (Owes token (native token) 0) (transferNative creator token value.toNat)
      (fun _ => Owes token (native token) value.toNat) State.Sound :=
    transferNative_in creator.property value.toNat (Nat.zero_add _)
  have hcreate := Triple.bind _ hvalue
    (fun _ => ht.constructor ⟨creator, value⟩ (native token)) _ hinit
  unfold deploy at h
  dsimp only at h
  generalize exec _ _ = out at h hcreate
  rcases out with ⟨e | u, s'⟩
  · cases h
  · cases h
    exact hcreate

/-- What solvency says of a state. -/
structure Solvent (k : Kind) (token : Address) (s : State Address) : Prop where
  backed : s.world.minted ≤ s.world.native token
  sound : s.Sound
  /-- a withdrawal of up to the caller's balance is covered, and goes through if
  the caller accepts the payout -/
  funded : ∀ (caller : Outside token) (wad : Uint256), wad ≤ s.world.balanceOf caller →
    wad.toNat ≤ s.world.native token ∧
    ∃ s', exec (callToken (k.code token) token (payNative (k.code token) token id true)
      ⟨caller, 0⟩ (.withdraw wad)) s = (.ok (), s')

/-- **Solvency.** After any run of either contract, from its creation on, the
tokens are covered; they are covered exactly if nothing was forced in. -/
theorem solvency (k : Kind) (token : Address) (creator : Outside token) (value : Uint256)
    (native : Address → Nat) (hsupply : total native < 2 ^ 256) (s₀ : State Address)
    (hdeploy : deploy (k.code token) creator value native = some s₀)
    (actions : List (Action token)) :
    Solvent k token (execAll (k.code token) actions s₀) ∧
    (native token = 0 → AllUnforced actions →
      (execAll (k.code token) actions s₀).world.minted =
        (execAll (k.code token) actions s₀).world.native token) := by
  have hstart := deploy_grown (keeps k token) hsupply hdeploy
  obtain ⟨extra, _, hcalm, h⟩ := execAll_grown (keeps k token) actions _ _ hstart
  have hbacked := h.backed
  refine ⟨⟨by omega, h.sound, ?_⟩, ?_⟩
  · intro caller wad hwad
    have hle : wad.toNat ≤ _ := hwad
    have := h.balance_le caller
    exact ⟨by omega, withdraw_returns k caller wad h hwad⟩
  · intro hzero hall
    have := hcalm hall
    omega

section Sample

def alice : Outside (0 : Fin 3) := ⟨1, by decide⟩
def bob : Outside (0 : Fin 3) := ⟨2, by decide⟩

abbrev aliceAccount : Fin 3 := alice
abbrev bobAccount : Fin 3 := bob

abbrev SampleAction := Action (0 : Fin 3)

theorem total_sample : total (fun _ : Fin 3 => 10) < 2 ^ 256 := by
  show ∑ _ : Fin 3, 10 < 2 ^ 256
  rw [Finset.sum_const]
  decide

/-- Alice wraps 5, takes 4 back, and while she is paid Bob wraps 3 and forces 1 in. -/
def reentrantRun : List (Action (0 : Fin 3)) :=
  [.call alice 5 .plain [] true,
   .call alice 0 (.withdraw 4) [.call bob 3 .deposit [] true, .move bob 0 1] true]

theorem solvency_reentrantRun :
    ∃ s₀, deploy (Kind.wneon.code (0 : Fin 3)) alice 0 (fun _ => 10) = some s₀ ∧
      Solvent .wneon 0 (execAll (Kind.wneon.code 0) reentrantRun s₀) := by
  exact ⟨_, rfl, (solvency .wneon 0 alice 0 (fun _ => 10) total_sample _ rfl reentrantRun).1⟩

end Sample

end NeonTests.WrappedToken
