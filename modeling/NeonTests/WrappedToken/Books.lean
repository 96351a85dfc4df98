import NeonTests.Lib.Runs
import NeonTests.WrappedToken.Definitions

/-!
# Wrapped tokens — the books

What a wrapped token is for, without the machine: who holds how much, and who
may take how much from whom. Amounts are natural numbers, and the calls that
take effect are posted one after another.

* `post_cases` — all that posting a call can do;
* `post_lowers` — whose balance a call may lower;
* `pulled_add_allowance` — what a spender takes comes off its allowance;
* `run_pulled_add_allowance` — so that a whole stretch without a new approval stays within
  the allowance it started with.
-/

namespace NeonTests.WrappedToken

open Runs Solidity

-- ---------------------------------------------------------------------------
-- Calls and books
-- ---------------------------------------------------------------------------

structure Call (Address : Type) extends Msg Address where
  data : Calldata Address

structure Books (Address : Type) where
  balanceOf : Address → Nat
  allowance : Address → Address → Nat

/-- The allowances that a transfer does not use up. -/
def Kind.Unlimited : Kind → Nat → Prop
  | .wneon, allowed => 2 ^ 256 - 1 ≤ allowed
  | .wNativeChainToken, _ => False

instance (k : Kind) (allowed : Nat) : Decidable (k.Unlimited allowed) := by
  unfold Kind.Unlimited
  split <;> infer_instance

variable {Address : Type} [DecidableEq Address]

def Books.credited (b : Books Address) (a : Address) (x : Nat) : Books Address :=
  { b with balanceOf := Function.update b.balanceOf a (b.balanceOf a + x) }

def Books.debited (b : Books Address) (a : Address) (x : Nat) : Books Address :=
  { b with balanceOf := Function.update b.balanceOf a (b.balanceOf a - x) }

def Books.approved (b : Books Address) (src guy : Address) (x : Nat) : Books Address :=
  { b with allowance := Function.update b.allowance src (Function.update (b.allowance src) guy x) }

/-- Take `wad` out, if it is there. -/
def Books.withdraw (b : Books Address) (a : Address) (wad : Nat) : Option (Books Address) :=
  if wad ≤ b.balanceOf a then some (b.debited a wad) else none

/-- Use up an allowance. The holder needs none. -/
def Books.spend (k : Kind) (b : Books Address) (src guy : Address) (wad : Nat) :
    Option (Books Address) :=
  if src = guy ∨ k.Unlimited (b.allowance src guy) then some b
  else if wad ≤ b.allowance src guy then some (b.approved src guy (b.allowance src guy - wad))
  else none

def Books.transferFrom (k : Kind) (b : Books Address) (caller src dst : Address) (wad : Nat) :
    Option (Books Address) :=
  if wad ≤ b.balanceOf src then
    (b.spend k src caller wad).map fun b => (b.debited src wad).credited dst wad
  else none

/-- A call that takes effect. -/
def Books.post (k : Kind) (b : Books Address) (c : Call Address) : Option (Books Address) :=
  match k, c.data with
  | _, .deposit | .wneon, .plain | .wneon, .unknown | .wneon, .withdrawTo _ _ =>
    some (b.credited c.sender c.value.toNat)
  | .wNativeChainToken, .plain | .wNativeChainToken, .unknown => none
  | _, .withdraw wad | .wNativeChainToken, .withdrawTo _ wad => b.withdraw c.sender wad.toNat
  | _, .approve guy wad => some (b.approved c.sender guy wad.toNat)
  | _, .transfer dst wad => b.transferFrom k c.sender c.sender dst wad.toNat
  | _, .transferFrom src dst wad => b.transferFrom k c.sender src dst wad.toNat
  | _, .totalSupply | _, .balanceOf _ | _, .allowance _ _ => some b

variable {k : Kind} {b b' : Books Address} {c : Call Address}

-- ---------------------------------------------------------------------------
-- What a call can do
-- ---------------------------------------------------------------------------

theorem withdraw_eq_some {a : Address} {wad : Nat} :
    b.withdraw a wad = some b' ↔ wad ≤ b.balanceOf a ∧ b' = b.debited a wad := by
  unfold Books.withdraw
  split
  · next h => simp [h, eq_comm]
  · next h => simp [h]

theorem spend_cases {src guy : Address} {wad : Nat} (h : b.spend k src guy wad = some b') :
    ((src = guy ∨ k.Unlimited (b.allowance src guy)) ∧ b' = b) ∨
      (src ≠ guy ∧ wad ≤ b.allowance src guy ∧
        b' = b.approved src guy (b.allowance src guy - wad)) := by
  unfold Books.spend at h
  split at h
  · next hfree => exact .inl ⟨hfree, (Option.some.inj h).symm⟩
  · next hlimited =>
    split at h
    · next hle => exact .inr ⟨fun heq => hlimited (.inl heq), hle, (Option.some.inj h).symm⟩
    · cases h

theorem spend_free {src guy : Address} (wad : Nat)
    (h : src = guy ∨ k.Unlimited (b.allowance src guy)) : b.spend k src guy wad = some b :=
  if_pos h

theorem spend_limited {src guy : Address} {wad : Nat} (hne : src ≠ guy)
    (hlimited : ¬ k.Unlimited (b.allowance src guy)) (hle : wad ≤ b.allowance src guy) :
    b.spend k src guy wad = some (b.approved src guy (b.allowance src guy - wad)) := by
  rw [Books.spend, if_neg (not_or.mpr ⟨hne, hlimited⟩), if_pos hle]

theorem spend_balanceOf {src guy : Address} {wad : Nat} (h : b.spend k src guy wad = some b') :
    b'.balanceOf = b.balanceOf := by
  rcases spend_cases h with ⟨_, rfl⟩ | ⟨_, _, rfl⟩ <;> rfl

theorem transferFrom_cases {caller src dst : Address} {wad : Nat}
    (h : b.transferFrom k caller src dst wad = some b') :
    wad ≤ b.balanceOf src ∧
      ∃ spent, b.spend k src caller wad = some spent ∧
        b' = (spent.debited src wad).credited dst wad := by
  unfold Books.transferFrom at h
  split at h
  · next hle =>
    obtain ⟨spent, hspent, hb'⟩ := Option.map_eq_some_iff.mp h
    exact ⟨hle, spent, hspent, hb'.symm⟩
  · cases h

/-- A call credits its sender, or takes from its sender, or approves for its sender, or
transfers, or is a query. -/
theorem post_cases (h : b.post k c = some b') :
    (∃ x, b' = b.credited c.sender x) ∨ (∃ wad, b.withdraw c.sender wad = some b') ∨
      (∃ guy wad, c.data = .approve guy wad ∧ b' = b.approved c.sender guy wad.toNat) ∨
      (∃ dst wad, c.data = .transfer dst wad ∧
        b.transferFrom k c.sender c.sender dst wad.toNat = some b') ∨
      (∃ src dst wad, c.data = .transferFrom src dst wad ∧
        b.transferFrom k c.sender src dst wad.toNat = some b') ∨ b' = b := by
  obtain ⟨msg, data⟩ := c
  rcases k with _ | _ <;> rcases data <;>
    simp only [Books.post, Option.some.injEq, reduceCtorEq] at h <;> grind

-- ---------------------------------------------------------------------------
-- Balances
-- ---------------------------------------------------------------------------

/-- The call is one of those that may lower the balance of `holder`. -/
def Call.MayLower (c : Call Address) (b : Books Address) (holder : Address) : Prop :=
  c.sender = holder ∨ ∃ dst wad, c.data = .transferFrom holder dst wad ∧
    wad.toNat ≤ b.allowance holder c.sender

theorem le_credited (b : Books Address) (a holder : Address) (x : Nat) :
    b.balanceOf holder ≤ (b.credited a x).balanceOf holder := by
  simp only [Books.credited]
  rcases eq_or_ne holder a with rfl | hne
  · rw [Function.update_self]
    omega
  · rw [Function.update_of_ne hne]

theorem debited_of_ne (b : Books Address) {a holder : Address} (x : Nat) (hne : holder ≠ a) :
    (b.debited a x).balanceOf holder = b.balanceOf holder :=
  Function.update_of_ne hne _ _

/-- Only the source of a transfer can lose by it. -/
theorem transferFrom_lowers {caller src dst holder : Address} {wad : Nat}
    (h : b.transferFrom k caller src dst wad = some b')
    (hlower : b'.balanceOf holder < b.balanceOf holder) : holder = src := by
  obtain ⟨_, spent, hspent, rfl⟩ := transferFrom_cases h
  by_contra hne
  have hle := le_credited (spent.debited src wad) dst holder wad
  rw [debited_of_ne _ _ hne, spend_balanceOf hspent] at hle
  omega

theorem transferFrom_allowed {caller src dst : Address} {wad : Nat} (hwad : wad < 2 ^ 256)
    (h : b.transferFrom k caller src dst wad = some b') :
    src = caller ∨ wad ≤ b.allowance src caller := by
  obtain ⟨_, spent, hspent, _⟩ := transferFrom_cases h
  rcases spend_cases hspent with ⟨hself | hunlimited, _⟩ | ⟨_, hle, _⟩
  · exact .inl hself
  · rcases k with _ | _
    · have hall : 2 ^ 256 - 1 ≤ b.allowance src caller := hunlimited
      exact .inr (by omega)
    · exact hunlimited.elim
  · exact .inr hle

/-- **Who lowers a balance.** Its holder, or a spender within the allowance. -/
theorem post_lowers (h : b.post k c = some b') {holder : Address}
    (hlower : b'.balanceOf holder < b.balanceOf holder) : c.MayLower b holder := by
  rcases post_cases h with ⟨x, rfl⟩ | ⟨wad, hb'⟩ | ⟨guy, wad, _, rfl⟩ | ⟨dst, wad, _, hb'⟩ |
    ⟨src, dst, wad, hdata, hb'⟩ | rfl
  · have := le_credited b c.sender holder x
    omega
  · obtain ⟨_, rfl⟩ := withdraw_eq_some.mp hb'
    refine .inl ?_
    by_contra hne
    rw [debited_of_ne _ _ (Ne.symm hne)] at hlower
    omega
  · exact absurd hlower (lt_irrefl _)
  · exact .inl (transferFrom_lowers hb' hlower).symm
  · obtain rfl := transferFrom_lowers hb' hlower
    rcases transferFrom_allowed wad.isLt hb' with hself | hallowed
    · exact .inl hself.symm
    · exact .inr ⟨dst, wad, hdata, hallowed⟩
  · exact absurd hlower (lt_irrefl _)

/-- A transfer to its own source. -/
def Call.ToItself (c : Call Address) : Prop :=
  (∃ wad, c.data = .transfer c.sender wad) ∨ ∃ src wad, c.data = .transferFrom src src wad

theorem transferFrom_self {caller src : Address} {wad : Nat}
    (h : b.transferFrom k caller src src wad = some b') : b'.balanceOf = b.balanceOf := by
  obtain ⟨hle, spent, hspent, rfl⟩ := transferFrom_cases h
  rw [← spend_balanceOf hspent] at hle ⊢
  simp only [Books.credited, Books.debited]
  rw [Function.update_self, Function.update_idem, Nat.sub_add_cancel hle, Function.update_eq_self]

theorem post_toItself (hself : c.ToItself) (h : b.post k c = some b') :
    b'.balanceOf = b.balanceOf := by
  rcases hself with ⟨wad, hdata⟩ | ⟨src, wad, hdata⟩
  · have hpost : b.post k c = b.transferFrom k c.sender c.sender c.sender wad.toNat := by
      simp only [Books.post, hdata]
    exact transferFrom_self (hpost ▸ h)
  · have hpost : b.post k c = b.transferFrom k c.sender src src wad.toNat := by
      simp only [Books.post, hdata]
    exact transferFrom_self (hpost ▸ h)

-- ---------------------------------------------------------------------------
-- Allowances
-- ---------------------------------------------------------------------------

/-- What `spender` takes out of the balance of `holder`. -/
def Call.pulled (holder spender : Address) (c : Call Address) : Nat :=
  match c.data with
  | .transferFrom src _ wad => if src = holder ∧ c.sender = spender then wad.toNat else 0
  | _ => 0

def Call.Approves (holder spender : Address) (c : Call Address) : Prop :=
  c.sender = holder ∧ ∃ wad, c.data = .approve spender wad

variable {holder spender : Address}

theorem approved_of_ne {src guy : Address} (x : Nat) (hne : ¬ (holder = src ∧ spender = guy)) :
    (b.approved src guy x).allowance holder spender = b.allowance holder spender := by
  simp only [Books.approved]
  rcases eq_or_ne holder src with rfl | hsrc
  · rw [Function.update_self, Function.update_of_ne fun heq => hne ⟨rfl, heq⟩]
  · rw [Function.update_of_ne hsrc]

theorem approved_self (src guy : Address) (x : Nat) :
    (b.approved src guy x).allowance src guy = x := by
  simp only [Books.approved]
  rw [Function.update_self, Function.update_self]

/-- A limited allowance goes down by what is taken. -/
theorem transferFrom_allowance {caller src dst : Address} {wad : Nat}
    (h : b.transferFrom k caller src dst wad = some b') (hne : spender ≠ holder)
    (hlimited : ¬ k.Unlimited (b.allowance holder spender)) :
    (if src = holder ∧ caller = spender then wad else 0) + b'.allowance holder spender =
      b.allowance holder spender := by
  obtain ⟨_, spent, hspent, rfl⟩ := transferFrom_cases h
  show _ + spent.allowance holder spender = _
  rcases spend_cases hspent with ⟨hfree, rfl⟩ | ⟨_, hle, rfl⟩
  · have hother : ¬ (src = holder ∧ caller = spender) := by
      rintro ⟨rfl, rfl⟩
      exact hfree.elim (fun heq => hne heq.symm) hlimited
    rw [if_neg hother, Nat.zero_add]
  · split
    · next hthis =>
      obtain ⟨rfl, rfl⟩ := hthis
      rw [approved_self]
      omega
    · next hother =>
      rw [approved_of_ne _ fun heq => hother ⟨heq.1.symm, heq.2.symm⟩, Nat.zero_add]

theorem pulled_eq_zero (h : ¬ ∃ src dst wad, c.data = .transferFrom src dst wad) :
    c.pulled holder spender = 0 := by
  unfold Call.pulled
  split
  · next src dst wad hdata => exact absurd ⟨src, dst, wad, hdata⟩ h
  · rfl

/-- **What a spender takes.** It comes off the allowance. -/
theorem pulled_add_allowance (h : b.post k c = some b') (happroves : ¬ c.Approves holder spender)
    (hne : spender ≠ holder) (hlimited : ¬ k.Unlimited (b.allowance holder spender)) :
    c.pulled holder spender + b'.allowance holder spender = b.allowance holder spender := by
  by_cases hpull : ∃ src dst wad, c.data = .transferFrom src dst wad
  · obtain ⟨src, dst, wad, hdata⟩ := hpull
    have hpost : b.transferFrom k c.sender src dst wad.toNat = some b' := by
      simpa only [Books.post, hdata] using h
    rw [← transferFrom_allowance hpost hne hlimited, Call.pulled, hdata]
  · rw [pulled_eq_zero hpull, Nat.zero_add]
    rcases post_cases h with ⟨x, rfl⟩ | ⟨wad, hb'⟩ | ⟨guy, wad, hdata, rfl⟩ | ⟨dst, wad, _, hb'⟩ |
      ⟨src, dst, wad, hdata, _⟩ | rfl
    · rfl
    · rw [(withdraw_eq_some.mp hb').2]
      rfl
    · refine approved_of_ne _ ?_
      rintro ⟨rfl, rfl⟩
      exact happroves ⟨rfl, wad, hdata⟩
    · have hown := transferFrom_allowance hb' hne hlimited
      rwa [if_neg fun heq => hne (heq.2.symm.trans heq.1), Nat.zero_add] at hown
    · exact absurd ⟨src, dst, wad, hdata⟩ hpull
    · rfl

theorem Kind.Unlimited.mono {m n : Nat} (h : k.Unlimited m) (hle : m ≤ n) : k.Unlimited n := by
  rcases k with _ | _
  · exact le_trans h hle
  · exact h

/-- **A stretch without a new approval.** What the spender takes and what is left of the allowance
are what it started with. -/
theorem run_pulled_add_allowance {calls : List (Call Address)}
    (hrun : run (Books.post k) b calls = some b')
    (happroves : ∀ c ∈ calls, ¬ c.Approves holder spender) (hne : spender ≠ holder)
    (hlimited : ¬ k.Unlimited (b.allowance holder spender)) :
    (calls.map (Call.pulled holder spender)).sum + b'.allowance holder spender =
      b.allowance holder spender := by
  induction calls generalizing b with
  | nil =>
    cases hrun
    exact Nat.zero_add _
  | cons c calls ih =>
    obtain ⟨mid, hpost, hrun⟩ := run_cons.mp hrun
    have hhead := pulled_add_allowance hpost (happroves c List.mem_cons_self) hne hlimited
    have hmid : ¬ k.Unlimited (mid.allowance holder spender) :=
      fun h => hlimited (h.mono (by omega))
    have htail := ih hrun (fun d hd => happroves d (List.mem_cons_of_mem _ hd)) hmid
    rw [List.map_cons, List.sum_cons]
    omega

end NeonTests.WrappedToken
