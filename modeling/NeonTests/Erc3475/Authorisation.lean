import NeonTests.Erc3475.Supply

/-!
# ERC3475 — whose bonds a call may take

A balance goes down at the word of its holder, of an operator the holder approved, or of
a spender within its allowance. `burn` asks the caller for that; `redeem` asks nothing,
so anybody redeems anybody's bonds.

* `Authorised` — what a call may do, `Breach` — the calls of `redeem` that do more;
* `execute_holdings_le` — nobody but the source of a call loses by it;
* `redeem_returns` — when a redemption goes through;
* `run_remembers` — the storage says what holders said in the calls before;
* `authorised_iff` — the calls that are not authorised, in every state a run reaches.
-/

namespace NeonTests.Erc3475

open Batch Fallible Ledger Solidity

variable {Address : Type} [DecidableEq Address] {c : Call Address} {b b' : Book Address}
  {n n' : Nonce Address} {t : Transaction} {ts : List Transaction} {src holder : Address}
  {bond : Bond}

-- ---------------------------------------------------------------------------
-- Who loses
-- ---------------------------------------------------------------------------

/-- The account a call takes from. -/
def Operation.source : Operation Address → Option Address
  | .transferFrom src _ _ => some src
  | .transferAllowanceFrom src _ _ => some src
  | .redeem src _ => some src
  | .burn src _ => some src
  | _ => none

theorem Call.Posts.holdings_le (h : c.Posts t b b') (hsource : c.operation.source ≠ some holder) :
    b.holdings holder ≤ b'.holdings holder := by
  obtain ⟨sender, timestamp, operation⟩ := c
  have hne {src : Address} (h : (some src : Option Address) ≠ some holder) : holder ≠ src :=
    fun heq => h (congrArg some heq.symm)
  cases operation with
  | transferFrom src dst ts =>
    obtain ⟨_, rfl⟩ := h
    rw [← debit_holdings_of_ne (b := b) (hne hsource)]
    exact holdings_le_credit _ _ _ _
  | transferAllowanceFrom src dst ts =>
    obtain ⟨_, _, rfl⟩ := h
    refine le_trans (le_of_eq ?_) (holdings_le_credit _ _ _ _)
    rw [debit_holdings_of_ne (hne hsource)]
    rfl
  | issue dst ts =>
    obtain rfl := h
    exact holdings_le_credit b _ _ _
  | redeem src ts =>
    obtain ⟨_, _, rfl⟩ := h
    exact (debit_holdings_of_ne (hne hsource)).ge
  | burn src ts =>
    obtain ⟨_, _, rfl⟩ := h
    exact (debit_holdings_of_ne (hne hsource)).ge
  | approve spender ts =>
    obtain rfl := h
    exact le_rfl
  | setApprovalFor operator approved => exact h.elim

theorem Call.Posts.values (h : c.Posts t b b') : b'.values = b.values := by
  obtain ⟨sender, timestamp, operation⟩ := c
  cases operation with
  | transferFrom src dst ts => rw [h.2]; rfl
  | transferAllowanceFrom src dst ts => rw [h.2.2]; rfl
  | issue dst ts => rw [show b' = _ from h]; rfl
  | redeem src ts => rw [h.2.2]; rfl
  | burn src ts => rw [h.2.2]; rfl
  | approve spender ts => rw [show b' = _ from h]; rfl
  | setApprovalFor operator approved => exact h.elim

variable [Zero Address] {s s' : Storage Address}

theorem execute_holdings_le (h : execute c s = .ok s')
    (hsource : c.operation.source ≠ some holder) (bond : Bond) :
    (s.nonces bond).book.holdings holder ≤ (s'.nonces bond).book.holdings holder := by
  refine execute_induction (fun _ b => (s.nonces bond).book.holdings holder ≤ b.holdings holder)
    le_rfl ?_ h
  exact fun past t b b' hle hposts => hle.trans (hposts.holdings_le hsource)

theorem execute_values (h : execute c s = .ok s') (bond : Bond) :
    (s'.nonces bond).values = (s.nonces bond).values := by
  refine execute_induction (fun _ b => b.values = (s.nonces bond).values) rfl ?_ h
  exact fun past t b b' hvalues hposts => hposts.values.trans hvalues

/-- No bond has dates: the deployment wrote none. -/
theorem run_values (calls : List (Call Address)) (bond : Bond) :
    ((callAll calls initial).nonces bond).values = fun _ => 0 := by
  refine Calls.applyAll_induction (fun _ (s : Storage Address) => (s.nonces bond).values = fun _ => 0)
    rfl ?_
  intro past c s s' hvalues hexec
  rw [execute_values hexec bond, hvalues]

-- ---------------------------------------------------------------------------
-- How much the source loses
-- ---------------------------------------------------------------------------

/-- What transactions ask for together. -/
def asked (ts : List Transaction) : Nat := (ts.map fun t => t.amount.toNat).sum

theorem asked_concat : asked (ts ++ [t]) = asked ts + t.amount.toNat := by simp [asked]

/-- What a batch asks for of a bond. -/
def requested (ts : List Transaction) (bond : Bond) : Nat := asked (itemsOf Transaction.bond ts bond)

omit [DecidableEq Address] [Zero Address] in
theorem requested_pos_iff : 0 < requested ts bond ↔
    ∃ t ∈ ts, t.bond = bond ∧ 0 < t.amount.toNat := by
  unfold requested asked itemsOf
  rw [Nat.pos_iff_ne_zero, Ne, List.sum_eq_zero_iff]
  simp [Nat.pos_iff_ne_zero, and_assoc]

theorem execute_redeem {sender : Address} {timestamp : Uint256}
    (h : execute ⟨sender, timestamp, .redeem src ts⟩ s = .ok s') (bond : Bond) :
    (s'.nonces bond).book.holdings src + requested ts bond = (s.nonces bond).book.holdings src ∧
      (s'.nonces bond).book.redeemed = (s.nonces bond).book.redeemed + requested ts bond := by
  refine execute_induction (fun past b =>
    b.holdings src + asked past = (s.nonces bond).book.holdings src ∧
    b.redeemed = (s.nonces bond).book.redeemed + asked past) ⟨rfl, rfl⟩ ?_ h
  rintro past t b b' ⟨hheld, hredeemed⟩ ⟨hle, _, rfl⟩
  have hdebit : (b.debit src t.amount.toNat).holdings src = b.holdings src - t.amount.toNat :=
    debit_holdings_self
  rw [asked_concat]
  refine ⟨?_, ?_⟩
  · show (b.debit src t.amount.toNat).holdings src + _ = _
    omega
  · show b.redeemed + t.amount.toNat = _
    omega

/-- A spender's transfer costs it as much of its allowance, and the holder as much of its
balance unless it goes back to the holder. -/
theorem execute_transferAllowanceFrom {sender dst : Address} {timestamp : Uint256}
    (h : execute ⟨sender, timestamp, .transferAllowanceFrom src dst ts⟩ s = .ok s') (bond : Bond) :
    (s'.nonces bond).book.allowances src sender + requested ts bond =
        (s.nonces bond).book.allowances src sender ∧
      (src = dst → (s'.nonces bond).book.holdings src = (s.nonces bond).book.holdings src) ∧
      (src ≠ dst → (s'.nonces bond).book.holdings src + requested ts bond =
        (s.nonces bond).book.holdings src) := by
  refine execute_induction (fun past b =>
    b.allowances src sender + asked past = (s.nonces bond).book.allowances src sender ∧
    (src = dst → b.holdings src = (s.nonces bond).book.holdings src) ∧
    (src ≠ dst → b.holdings src + asked past = (s.nonces bond).book.holdings src))
    ⟨rfl, fun _ => rfl, fun _ => rfl⟩ ?_ h
  rintro past t b b' ⟨hallowance, hsame, hother⟩ ⟨hle, hallowed, rfl⟩
  replace hallowed : t.amount.toNat ≤ b.allowances src sender := hallowed
  have hdebit : ((b.spend src sender t.amount.toNat).debit src t.amount.toNat).holdings src =
      b.holdings src - t.amount.toNat := debit_holdings_self
  rw [asked_concat]
  refine ⟨?_, ?_, ?_⟩
  · show Function.update b.allowances src (Function.update _ sender _) src sender + _ = _
    rw [Function.update_self, Function.update_self]
    show b.allowances src sender - t.amount.toNat + _ = _
    omega
  · rintro rfl
    rw [credit_holdings_self, hdebit, Nat.sub_add_cancel hle]
    exact hsame rfl
  · intro hne
    have := hother hne
    rw [credit_holdings_of_ne hne, hdebit]
    omega

-- ---------------------------------------------------------------------------
-- When a redemption goes through
-- ---------------------------------------------------------------------------

/-- `x` of the bond can be redeemed from `src`. -/
structure Redeemable (src : Address) (x : Nat) (n : Nonce Address) : Prop where
  issuance : n.values 0 = 0
  maturity : n.values 5 = 0
  held : x ≤ n.book.holdings src
  active : x ≤ n.book.active
  redeemed : n.book.redeemed + x < 2 ^ 256

omit [DecidableEq Address] [Zero Address] in
theorem getProgress_eq {timestamp : Uint256} (hissuance : n.values 0 = 0)
    (hmaturity : n.values 5 = 0) : getProgress timestamp n = .ok (timestamp, 0) := by
  have hdate : checkedAdd (n.values 0) (n.values 5) = .ok (0 : Uint256) := by
    rw [hissuance, hmaturity]
    rfl
  have hachieved : checkedSub timestamp (n.values 0) = .ok timestamp := by
    rw [hissuance, checkedSub_eq_ok]
    rfl
  simp only [getProgress, hdate, hachieved, ok_bind]
  have hmature : ¬ timestamp < 0 := Nat.not_lt_zero timestamp.toNat
  rw [if_neg hmature]
  rfl

omit [DecidableEq Address] [Zero Address] in
theorem subActive_returns {x : Uint256} (h : x.toNat ≤ n.book.active) :
    ∃ n', subActive x n = .ok n' :=
  ⟨_, bind_eq_ok.mpr ⟨_, if_pos h, rfl⟩⟩

omit [DecidableEq Address] [Zero Address] in
theorem addRedeemed_returns {x : Uint256} (h : n.book.redeemed + x.toNat < 2 ^ 256) :
    ∃ n', addRedeemed x n = .ok n' :=
  ⟨_, bind_eq_ok.mpr ⟨_, if_pos h, rfl⟩⟩

omit [Zero Address] in
theorem subBalance_returns {a : Address} {x : Uint256} (h : x.toNat ≤ n.book.holdings a) :
    ∃ n', subBalance a x n = .ok n' :=
  ⟨_, bind_eq_ok.mpr ⟨_, if_pos h, rfl⟩⟩

omit [Zero Address] in
/-- One transaction goes through, and what else can be redeemed still can. -/
theorem Internal.redeem_returns {x : Nat} (h : Redeemable src (t.amount.toNat + x) n) :
    ∃ n', Internal.redeem src t n = .ok n' ∧ Redeemable src x n' := by
  have hheld := h.held
  have hactive := h.active
  have hredeemed := h.redeemed
  obtain ⟨debited, hdebited⟩ := subBalance_returns (n := n) (a := src) (x := t.amount) (by omega)
  have hdebited' := subBalance_ok hdebited
  obtain ⟨retired, hretired⟩ := subActive_returns (n := debited) (x := t.amount) (by
    rw [hdebited']
    exact (Nat.le_add_right _ _).trans hactive)
  have hretired' := (subActive_ok hretired).2
  obtain ⟨n', hn'⟩ := addRedeemed_returns (n := retired) (x := t.amount) (by
    rw [hretired', hdebited']
    show n.book.redeemed + t.amount.toNat < 2 ^ 256
    omega)
  have hdone : Internal.redeem src t n = .ok n' :=
    require_bind_eq_ok.mpr ⟨(Nat.le_add_right _ _).trans hheld,
      bind_eq_ok.mpr ⟨debited, hdebited, bind_eq_ok.mpr ⟨retired, hretired, hn'⟩⟩⟩
  obtain ⟨_, _, hbook⟩ := redeem_ok hdone
  have hvalues : n'.values = n.values := congrArg Book.values hbook
  refine ⟨n', hdone, ?_, ?_, ?_, ?_, ?_⟩
  · rw [hvalues]
    exact h.issuance
  · rw [hvalues]
    exact h.maturity
  · rw [hbook]
    show x ≤ (n.book.debit src t.amount.toNat).holdings src
    rw [debit_holdings_self]
    omega
  · rw [hbook]
    show x ≤ n.book.active - t.amount.toNat
    omega
  · rw [hbook]
    show n.book.redeemed + t.amount.toNat + x < 2 ^ 256
    omega

/-- **Redemption.** It needs no more than bonds of the source to redeem, whoever asks. -/
theorem redeem_returns {sender : Address} {timestamp : Uint256} (hsrc : src ≠ 0)
    (h : ∀ bond, Redeemable src (requested ts bond) (s.nonces bond)) :
    ∃ s', redeem timestamp sender src ts s = .ok s' := by
  have hstep (t : Transaction) (x : Nat) (n : Nonce Address)
      (hn : Redeemable src (t.amount.toNat + x) n) :
      ∃ n', redeemTransaction timestamp src t n = .ok n' ∧ Redeemable src x n' := by
    obtain ⟨n', hn', hleft⟩ := Internal.redeem_returns hn
    refine ⟨n', ?_, hleft⟩
    rw [redeemTransaction, getProgress_eq hn.issuance hn.maturity]
    exact hn'
  obtain ⟨nonces, hnonces⟩ := run_returns fun bond => fold_returns (Redeemable src) hstep (h bond)
  exact ⟨_, require_bind_eq_ok.mpr ⟨hsrc,
    bind_eq_ok.mpr ⟨_, bind_eq_ok.mpr ⟨nonces, hnonces, rfl⟩, rfl⟩⟩⟩

-- ---------------------------------------------------------------------------
-- What holders gave
-- ---------------------------------------------------------------------------

/-- The holder's last word on the operator. -/
def approvedBy (past : List (Call Address)) (holder operator : Address) : Bool :=
  (past.filterMap (Call.approval holder operator)).getLast?.getD false

/-- What a transaction leaves of an allowance: the holder's `approve` sets it anew, a transfer
of the spender uses it up, and nothing else touches it. -/
def Call.allowanceAfter (c : Call Address) (holder spender : Address) (given : Nat)
    (t : Transaction) : Nat :=
  match c.operation with
  | .approve other _ => if c.sender = holder ∧ other = spender then t.amount.toNat else given
  | .transferAllowanceFrom src _ _ =>
    if src = holder ∧ c.sender = spender then given - t.amount.toNat else given
  | _ => given

/-- What the holder gave the spender of a bond, and is not used up. -/
def allowanceGiven (past : List (Call Address)) (holder spender : Address) (bond : Bond) : Nat :=
  past.foldl (fun given c => (itemsOf Transaction.bond c.operation.transactions bond).foldl
    (c.allowanceAfter holder spender) given) 0

omit [Zero Address] in
theorem allow_allowances (b : Book Address) (owner other holder spender : Address) (x : Nat) :
    (b.allow owner other x).allowances holder spender =
      if owner = holder ∧ other = spender then x else b.allowances holder spender := by
  unfold Book.allow
  rcases eq_or_ne owner holder with rfl | howner
  · rcases eq_or_ne other spender with rfl | hother
    · simp
    · simp [hother, hother.symm]
  · simp [howner, howner.symm]

omit [Zero Address] in
theorem Call.Posts.allowances (h : c.Posts t b b') (holder spender : Address) :
    b'.allowances holder spender =
      c.allowanceAfter holder spender (b.allowances holder spender) t := by
  obtain ⟨sender, timestamp, operation⟩ := c
  cases operation with
  | transferFrom src dst ts => rw [h.2]; rfl
  | transferAllowanceFrom src dst ts =>
    obtain ⟨_, _, rfl⟩ := h
    refine (allow_allowances b src sender holder spender _).trans ?_
    show _ = if src = holder ∧ sender = spender then
      b.allowances holder spender - t.amount.toNat else b.allowances holder spender
    split
    · next heq => rw [heq.1, heq.2]
    · rfl
  | issue dst ts => rw [show b' = _ from h]; rfl
  | redeem src ts => rw [h.2.2]; rfl
  | burn src ts => rw [h.2.2]; rfl
  | approve other ts =>
    obtain rfl := h
    exact allow_allowances b sender other holder spender _
  | setApprovalFor operator approved => exact h.elim

theorem execute_allowances (h : execute c s = .ok s') (holder spender : Address) (bond : Bond) :
    (s'.nonces bond).book.allowances holder spender =
      (itemsOf Transaction.bond c.operation.transactions bond).foldl
        (c.allowanceAfter holder spender) ((s.nonces bond).book.allowances holder spender) := by
  refine execute_induction (fun past b => b.allowances holder spender = past.foldl
    (c.allowanceAfter holder spender) ((s.nonces bond).book.allowances holder spender)) rfl ?_ h
  intro past t b b' hpast hposts
  rw [List.foldl_append, ← hpast]
  exact hposts.allowances holder spender

/-- The storage says what holders said. -/
structure Remembers (past : List (Call Address)) (s : Storage Address) : Prop where
  approvals : ∀ holder operator,
    isApprovedFor holder operator s = approvedBy past holder operator
  allowances : ∀ holder spender bond, (s.nonces bond).book.allowances holder spender =
    allowanceGiven past holder spender bond

theorem run_remembers (calls : List (Call Address)) :
    Remembers (Calls.returned execute calls initial) (callAll calls initial) := by
  refine Calls.applyAll_induction Remembers ⟨fun _ _ => rfl, fun _ _ _ => rfl⟩ ?_
  intro past c s s' hpast hexec
  refine ⟨?_, ?_⟩
  · intro holder operator
    rw [(execute_ok hexec).approvals, hpast.approvals]
    unfold approvedBy
    rw [List.filterMap_append]
    cases hword : c.approval holder operator <;> simp [hword]
  · intro holder spender bond
    rw [execute_allowances hexec, hpast.allowances]
    unfold allowanceGiven
    rw [List.foldl_append]
    rfl

-- ---------------------------------------------------------------------------
-- Which calls are authorised
-- ---------------------------------------------------------------------------

/-- `c` takes from the holder of the bond what it spends of an allowance the holder gave. -/
def SpendsAllowance (past : List (Call Address)) (s : Storage Address) (c : Call Address)
    (holder : Address) (bond : Bond) : Prop :=
  (∃ dst ts, c.operation = .transferAllowanceFrom holder dst ts) ∧
    ∃ spent ≤ allowanceGiven past holder c.sender bond,
      ((call s c).nonces bond).book.holdings holder + spent =
        (s.nonces bond).book.holdings holder ∧
      ((call s c).nonces bond).book.allowances holder c.sender + spent =
        (s.nonces bond).book.allowances holder c.sender

/-- After the calls `past`, which led to `s`, only the holder, its operators and its spenders
lower a balance by `c`. -/
def Authorised (past : List (Call Address)) (s : Storage Address) (c : Call Address) : Prop :=
  ∀ holder bond, ((call s c).nonces bond).balances holder < (s.nonces bond).balances holder →
    c.sender = holder ∨ approvedBy past holder c.sender = true ∨
      SpendsAllowance past s c holder bond

/-- A redemption by somebody who is neither the holder nor its operator, of bonds the holder
has and which the redeemed supply has room for. -/
def Breach (s : Storage Address) (c : Call Address) : Prop :=
  ∃ src ts, c.operation = .redeem src ts ∧ c.sender ≠ src ∧
    isApprovedFor src c.sender s = false ∧ src ≠ 0 ∧ (∃ t ∈ ts, t.amount ≠ 0) ∧
    ∀ bond, requested ts bond ≤ ((s.nonces bond).balances src).toNat ∧
      (s.nonces bond).redeemedSupply.toNat + requested ts bond < 2 ^ 256

/-- A redemption that took something, by a stranger. -/
theorem breach_of_redeem {sender : Address} {timestamp : Uint256}
    (h : execute ⟨sender, timestamp, .redeem src ts⟩ s = .ok s')
    (hlower : (s'.nonces bond).balances src < (s.nonces bond).balances src)
    (hsender : sender ≠ src) (hoperator : isApprovedFor src sender s = false) :
    Breach s ⟨sender, timestamp, .redeem src ts⟩ := by
  obtain ⟨hsrc, _⟩ := require_bind_eq_ok.mp h
  refine ⟨src, ts, rfl, hsender, hoperator, hsrc, ?_, ?_⟩
  · have hlost := (execute_redeem h bond).1
    replace hlower : (s'.nonces bond).book.holdings src < (s.nonces bond).book.holdings src :=
      hlower
    obtain ⟨t, ht, _, hpos⟩ := requested_pos_iff.mp (by omega : 0 < requested ts bond)
    refine ⟨t, ht, ?_⟩
    intro hzero
    rw [hzero] at hpos
    exact absurd hpos (lt_irrefl _)
  · intro bond
    obtain ⟨hheld, hredeemed⟩ := execute_redeem h bond
    refine ⟨(Nat.le_add_left _ _).trans hheld.le, ?_⟩
    exact hredeemed ▸ (s'.nonces bond).redeemedSupply.isLt

theorem authorised_of_not_breach {past : List (Call Address)} (hpast : Remembers past s)
    (h : ¬ Breach s c) : Authorised past s c := by
  intro holder bond hlower
  rcases hexec : execute c s with e | s'
  · rw [call_of_error hexec] at hlower
    exact absurd hlower (Nat.lt_irrefl _)
  · rw [call_of_ok hexec] at hlower
    have hsource : c.operation.source = some holder := by
      by_contra hsource
      exact absurd (execute_holdings_le hexec hsource bond) (Nat.not_le.mpr hlower)
    obtain ⟨sender, timestamp, operation⟩ := c
    have hopen := (execute_ok hexec).authorises
    cases operation with
    | transferFrom src dst ts =>
      obtain rfl := Option.some.inj hsource
      refine hopen.imp_right fun hoperator => .inl ?_
      rw [← hpast.approvals]
      exact hoperator
    | burn src ts =>
      obtain rfl := Option.some.inj hsource
      refine hopen.imp_right fun hoperator => .inl ?_
      rw [← hpast.approvals]
      exact hoperator
    | transferAllowanceFrom src dst ts =>
      obtain rfl := Option.some.inj hsource
      obtain ⟨hallowance, hsame, hother⟩ := execute_transferAllowanceFrom hexec bond
      have hne : src ≠ dst := fun heq => absurd (hsame heq) (Nat.ne_of_lt hlower)
      refine .inr (.inr ⟨⟨dst, ts, rfl⟩, requested ts bond, ?_, ?_⟩)
      · rw [← hpast.allowances, ← hallowance]
        exact Nat.le_add_left _ _
      · rw [call_of_ok hexec]
        exact ⟨hother hne, hallowance⟩
    | redeem src ts =>
      obtain rfl := Option.some.inj hsource
      by_contra hnone
      rw [not_or, not_or, Bool.not_eq_true, ← hpast.approvals] at hnone
      exact h (breach_of_redeem hexec hlower hnone.1 hnone.2.1)
    | issue dst ts => cases hsource
    | approve spender ts => cases hsource
    | setApprovalFor operator approved => cases hsource

theorem not_authorised_of_breach [Fintype Address] {calls : List (Call Address)}
    {past : List (Call Address)} (hpast : Remembers past (callAll calls initial))
    (h : Breach (callAll calls initial) c) : ¬ Authorised past (callAll calls initial) c := by
  obtain ⟨src, ts, hop, hsender, hoperator, hsrc, ⟨t, ht, hamount⟩, hfunds⟩ := h
  obtain ⟨sender, timestamp, operation⟩ := c
  obtain rfl : operation = .redeem src ts := hop
  obtain ⟨s', hexec⟩ : ∃ s', execute ⟨sender, timestamp, .redeem src ts⟩
      (callAll calls initial) = .ok s' := by
    refine redeem_returns hsrc fun bond => ?_
    obtain ⟨hheld, hredeemed⟩ := hfunds bond
    have hvalues := run_values calls bond
    refine ⟨?_, ?_, hheld, ?_, hredeemed⟩
    · rw [hvalues]
    · rw [hvalues]
    · have hbacked := (run_accounts calls bond).backed
      exact hheld.trans ((le_total _ src).trans hbacked.le)
  have hlost := (execute_redeem hexec t.bond).1
  have hpos : 0 < requested ts t.bond := by
    refine requested_pos_iff.mpr ⟨t, ht, rfl, Nat.pos_of_ne_zero ?_⟩
    exact fun hzero => hamount (BitVec.eq_of_toNat_eq hzero)
  intro hauthorised
  have hlower : ((call (callAll calls initial) ⟨sender, timestamp, .redeem src ts⟩).nonces
      t.bond).balances src < ((callAll calls initial).nonces t.bond).balances src := by
    rw [call_of_ok hexec, BitVec.lt_def]
    show (s'.nonces t.bond).book.holdings src <
      ((callAll calls initial).nonces t.bond).book.holdings src
    omega
  rcases hauthorised src t.bond hlower with hholder | happroved | ⟨⟨dst, _, hop⟩, _⟩
  · exact hsender hholder
  · rw [← hpast.approvals] at happroved
    exact absurd (hoperator.symm.trans happroved) Bool.false_ne_true
  · cases hop

/-- **Authorisation.** In every state a run reaches and for every call, balances go down only
by the word of their holders if and only if the call is no redemption by a stranger that goes
through. -/
theorem authorised_iff [Fintype Address] (calls : List (Call Address)) (c : Call Address) :
    Authorised (Calls.returned execute calls initial) (callAll calls initial) c ↔
      ¬ Breach (callAll calls initial) c :=
  ⟨fun hauthorised hbreach =>
    not_authorised_of_breach (run_remembers calls) hbreach hauthorised,
    authorised_of_not_breach (run_remembers calls)⟩

section Sample

inductive Account
  | zero
  | bank
  | lender
  | stranger
  deriving DecidableEq

instance : Zero Account := ⟨.zero⟩

/-- 7 of class 0, nonce 0 are issued to the lender. -/
def lenderRun : List (Call Account) := [⟨.bank, 0, .issue .lender [⟨0, 0, 7⟩]⟩]

/-- A stranger, whom nobody approved, redeems them. -/
theorem redeem_unauthorised :
    ¬ Authorised (Calls.returned execute lenderRun initial) (callAll lenderRun initial)
      ⟨.stranger, 0, .redeem .lender [⟨0, 0, 7⟩]⟩ := by
  intro hauthorised
  have hbalance := hauthorised .lender (0, 0) (by decide)
  rcases hbalance with hholder | happroved | ⟨⟨dst, ts, hop⟩, _⟩
  · cases hholder
  · cases happroved
  · cases hop

end Sample

end NeonTests.Erc3475
