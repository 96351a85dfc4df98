import NeonTests.Erc3475.Definitions
import NeonTests.Lib.Ledger

/-!
# ERC3475 — what a call does to a bond

The books of a bond: who holds how much of it, who may take how much, and what became
of the rest, as natural numbers. A transaction that goes through is a posting to the
books of its bond; a call that returns has posted its transactions, bond by bond.

* `Call.Posts` — what one transaction of a call does;
* `Internal.transferFrom_ok` .. `Internal.burn_ok` — the contract does that;
* `execute_ok` — all that a call which returned did;
* `execute_induction` — the invariant rule for the books of a bond.
-/

namespace NeonTests.Erc3475

open Batch Fallible Ledger Solidity

variable {Address : Type}

-- ---------------------------------------------------------------------------
-- The books of a bond
-- ---------------------------------------------------------------------------

structure Book (Address : Type) where
  /-- the dates; no call writes them -/
  values : Uint256 → Uint256
  holdings : Address → Nat
  allowances : Address → Address → Nat
  active : Nat
  burned : Nat
  redeemed : Nat

def Nonce.book (n : Nonce Address) : Book Address where
  values := n.values
  holdings a := (n.balances a).toNat
  allowances owner spender := (n.allowances owner spender).toNat
  active := n.activeSupply.toNat
  burned := n.burnedSupply.toNat
  redeemed := n.redeemedSupply.toNat

section Postings

variable [DecidableEq Address]

def Book.credit (b : Book Address) (a : Address) (x : Nat) : Book Address :=
  { b with holdings := Function.update b.holdings a (b.holdings a + x) }

def Book.debit (b : Book Address) (a : Address) (x : Nat) : Book Address :=
  { b with holdings := Function.update b.holdings a (b.holdings a - x) }

def Book.allow (b : Book Address) (owner spender : Address) (x : Nat) : Book Address :=
  { b with
    allowances := Function.update b.allowances owner
      (Function.update (b.allowances owner) spender x) }

/-- The allowance goes down by `x`. -/
def Book.spend (b : Book Address) (owner spender : Address) (x : Nat) : Book Address :=
  b.allow owner spender (b.allowances owner spender - x)

section Entries

variable {b : Book Address} {a holder : Address} {x : Nat}

theorem credit_holdings_self : (b.credit a x).holdings a = b.holdings a + x := by
  unfold Book.credit
  exact Function.update_self _ _ _

theorem credit_holdings_of_ne (h : holder ≠ a) :
    (b.credit a x).holdings holder = b.holdings holder := by
  unfold Book.credit
  exact Function.update_of_ne h _ _

theorem debit_holdings_self : (b.debit a x).holdings a = b.holdings a - x := by
  unfold Book.debit
  exact Function.update_self _ _ _

theorem debit_holdings_of_ne (h : holder ≠ a) :
    (b.debit a x).holdings holder = b.holdings holder := by
  unfold Book.debit
  exact Function.update_of_ne h _ _

theorem holdings_le_credit (b : Book Address) (a holder : Address) (x : Nat) :
    b.holdings holder ≤ (b.credit a x).holdings holder := by
  rcases eq_or_ne holder a with rfl | hne
  · rw [credit_holdings_self]
    omega
  · rw [credit_holdings_of_ne hne]

end Entries

/-- What the transaction `t` of call `c` does to the books of its bond. -/
def Call.Posts (c : Call Address) (t : Transaction) (b b' : Book Address) : Prop :=
  match c.operation with
  | .transferFrom src dst _ =>
    t.amount.toNat ≤ b.holdings src ∧
      b' = (b.debit src t.amount.toNat).credit dst t.amount.toNat
  | .transferAllowanceFrom src dst _ =>
    t.amount.toNat ≤ b.holdings src ∧ t.amount.toNat ≤ b.allowances src c.sender ∧
      b' = ((b.spend src c.sender t.amount.toNat).debit src t.amount.toNat).credit dst
        t.amount.toNat
  | .issue dst _ =>
    b' = { b.credit dst t.amount.toNat with active := b.active + t.amount.toNat }
  | .redeem src _ =>
    t.amount.toNat ≤ b.holdings src ∧ t.amount.toNat ≤ b.active ∧
      b' = { b.debit src t.amount.toNat with
        active := b.active - t.amount.toNat
        redeemed := b.redeemed + t.amount.toNat }
  | .burn src _ =>
    t.amount.toNat ≤ b.holdings src ∧ t.amount.toNat ≤ b.active ∧
      b' = { b.debit src t.amount.toNat with
        active := b.active - t.amount.toNat
        burned := b.burned + t.amount.toNat }
  | .approve spender _ => b' = b.allow c.sender spender t.amount.toNat
  | .setApprovalFor _ _ => False

end Postings

-- ---------------------------------------------------------------------------
-- Statements
-- ---------------------------------------------------------------------------

variable {n n' : Nonce Address} {t : Transaction} {src dst operator a : Address} {x : Uint256}

theorem addActive_ok (h : addActive x n = .ok n') :
    n'.book = { n.book with active := n.book.active + x.toNat } := by
  obtain ⟨supply, hsupply, h⟩ := bind_eq_ok.mp h
  obtain rfl := pure_eq_ok.mp h
  simp only [Nonce.book, checkedAdd_eq_ok.mp hsupply]

theorem subActive_ok (h : subActive x n = .ok n') :
    x.toNat ≤ n.book.active ∧ n'.book = { n.book with active := n.book.active - x.toNat } := by
  obtain ⟨supply, hsupply, h⟩ := bind_eq_ok.mp h
  obtain rfl := pure_eq_ok.mp h
  have hsub := checkedSub_eq_ok.mp hsupply
  refine ⟨Nat.le.intro ((Nat.add_comm _ _).trans hsub), ?_⟩
  simp only [Nonce.book, Nat.eq_sub_of_add_eq hsub]

theorem addBurned_ok (h : addBurned x n = .ok n') :
    n'.book = { n.book with burned := n.book.burned + x.toNat } := by
  obtain ⟨supply, hsupply, h⟩ := bind_eq_ok.mp h
  obtain rfl := pure_eq_ok.mp h
  simp only [Nonce.book, checkedAdd_eq_ok.mp hsupply]

theorem addRedeemed_ok (h : addRedeemed x n = .ok n') :
    n'.book = { n.book with redeemed := n.book.redeemed + x.toNat } := by
  obtain ⟨supply, hsupply, h⟩ := bind_eq_ok.mp h
  obtain rfl := pure_eq_ok.mp h
  simp only [Nonce.book, checkedAdd_eq_ok.mp hsupply]

variable [DecidableEq Address]

theorem book_setBalance (n : Nonce Address) (a : Address) (balance : Uint256) :
    ({ n with balances := Function.update n.balances a balance } : Nonce Address).book =
      { n.book with holdings := Function.update n.book.holdings a balance.toNat } := by
  simp only [Nonce.book, toNat_update]

theorem book_setAllowance (owner spender : Address) (x : Uint256) (n : Nonce Address) :
    (setAllowance owner spender x n).book = n.book.allow owner spender x.toNat := by
  simp only [setAllowance, Nonce.book, Book.allow, toNat_update_update]

theorem addBalance_ok (h : addBalance a x n = .ok n') : n'.book = n.book.credit a x.toNat := by
  obtain ⟨balance, hbalance, h⟩ := bind_eq_ok.mp h
  obtain rfl := pure_eq_ok.mp h
  rw [book_setBalance, checkedAdd_eq_ok.mp hbalance]
  rfl

theorem subBalance_ok (h : subBalance a x n = .ok n') : n'.book = n.book.debit a x.toNat := by
  obtain ⟨balance, hbalance, h⟩ := bind_eq_ok.mp h
  obtain rfl := pure_eq_ok.mp h
  rw [book_setBalance, Nat.eq_sub_of_add_eq (checkedSub_eq_ok.mp hbalance)]
  rfl

theorem subAllowance_ok (h : subAllowance src operator x n = .ok n') :
    x.toNat ≤ n.book.allowances src operator ∧ n'.book = n.book.spend src operator x.toNat := by
  obtain ⟨allowance, hallowance, h⟩ := bind_eq_ok.mp h
  obtain rfl := pure_eq_ok.mp h
  have hsub := checkedSub_eq_ok.mp hallowance
  rw [book_setAllowance, Nat.eq_sub_of_add_eq hsub]
  exact ⟨Nat.le.intro ((Nat.add_comm _ _).trans hsub), rfl⟩

-- ---------------------------------------------------------------------------
-- One transaction
-- ---------------------------------------------------------------------------

namespace Internal

theorem transferFrom_ok (h : transferFrom src dst t n = .ok n') :
    t.amount.toNat ≤ n.book.holdings src ∧
      n'.book = (n.book.debit src t.amount.toNat).credit dst t.amount.toNat := by
  obtain ⟨hle, h⟩ := require_bind_eq_ok.mp h
  obtain ⟨debited, hdebited, h⟩ := bind_eq_ok.mp h
  rw [addBalance_ok h, subBalance_ok hdebited]
  exact ⟨hle, rfl⟩

theorem transferAllowanceFrom_ok (h : transferAllowanceFrom operator src dst t n = .ok n') :
    t.amount.toNat ≤ n.book.holdings src ∧ t.amount.toNat ≤ n.book.allowances src operator ∧
      n'.book = ((n.book.spend src operator t.amount.toNat).debit src t.amount.toNat).credit dst
        t.amount.toNat := by
  obtain ⟨hle, h⟩ := require_bind_eq_ok.mp h
  obtain ⟨spent, hspent, h⟩ := bind_eq_ok.mp h
  obtain ⟨debited, hdebited, h⟩ := bind_eq_ok.mp h
  rw [addBalance_ok h, subBalance_ok hdebited, (subAllowance_ok hspent).2]
  exact ⟨hle, (subAllowance_ok hspent).1, rfl⟩

theorem issue_ok (h : issue dst t n = .ok n') :
    n'.book = { n.book.credit dst t.amount.toNat with
      active := n.book.active + t.amount.toNat } := by
  obtain ⟨credited, hcredited, h⟩ := bind_eq_ok.mp h
  rw [addActive_ok h, addBalance_ok hcredited]
  rfl

theorem redeem_ok (h : redeem src t n = .ok n') :
    t.amount.toNat ≤ n.book.holdings src ∧ t.amount.toNat ≤ n.book.active ∧
      n'.book = { n.book.debit src t.amount.toNat with
        active := n.book.active - t.amount.toNat
        redeemed := n.book.redeemed + t.amount.toNat } := by
  obtain ⟨hle, h⟩ := require_bind_eq_ok.mp h
  obtain ⟨debited, hdebited, h⟩ := bind_eq_ok.mp h
  obtain ⟨retired, hretired, h⟩ := bind_eq_ok.mp h
  obtain ⟨hactive, hbook⟩ := subActive_ok hretired
  rw [subBalance_ok hdebited] at hactive hbook
  rw [addRedeemed_ok h, hbook]
  exact ⟨hle, hactive, rfl⟩

theorem burn_ok (h : burn src t n = .ok n') :
    t.amount.toNat ≤ n.book.holdings src ∧ t.amount.toNat ≤ n.book.active ∧
      n'.book = { n.book.debit src t.amount.toNat with
        active := n.book.active - t.amount.toNat
        burned := n.book.burned + t.amount.toNat } := by
  obtain ⟨hle, h⟩ := require_bind_eq_ok.mp h
  obtain ⟨debited, hdebited, h⟩ := bind_eq_ok.mp h
  obtain ⟨retired, hretired, h⟩ := bind_eq_ok.mp h
  obtain ⟨hactive, hbook⟩ := subActive_ok hretired
  rw [subBalance_ok hdebited] at hactive hbook
  rw [addBurned_ok h, hbook]
  exact ⟨hle, hactive, rfl⟩

end Internal

-- ---------------------------------------------------------------------------
-- A call
-- ---------------------------------------------------------------------------

def Operation.transactions : Operation Address → List Transaction
  | .transferFrom _ _ transactions => transactions
  | .transferAllowanceFrom _ _ transactions => transactions
  | .issue _ transactions => transactions
  | .redeem _ transactions => transactions
  | .burn _ transactions => transactions
  | .approve _ transactions => transactions
  | .setApprovalFor _ _ => []

/-- The operations that ask who the caller is: the holder, or approved by it. -/
def Call.Authorises (c : Call Address) (s : Storage Address) : Prop :=
  match c.operation with
  | .transferFrom src _ _ => c.sender = src ∨ isApprovedFor src c.sender s = true
  | .burn src _ => c.sender = src ∨ isApprovedFor src c.sender s = true
  | _ => True

/-- What a call says about `operator` acting for `holder`, if anything. -/
def Call.approval (holder operator : Address) (c : Call Address) : Option Bool :=
  match c.operation with
  | .setApprovalFor other approved =>
    if c.sender = holder ∧ other = operator then some approved else none
  | _ => none

/-- All that a call which returned did. -/
structure Returned (c : Call Address) (s s' : Storage Address) : Prop where
  authorises : c.Authorises s
  approvals : ∀ holder operator, isApprovedFor holder operator s' =
    (c.approval holder operator).getD (isApprovedFor holder operator s)
  nonces : ∃ f : Transaction → Nonce Address → Except Revert (Nonce Address),
    (∀ t n n', f t n = .ok n' → c.Posts t n.book n'.book) ∧
    ∀ bond, fold f (itemsOf Transaction.bond c.operation.transactions bond) (s.nonces bond) =
      .ok (s'.nonces bond)

variable {c : Call Address} {s s' : Storage Address} {ts : List Transaction} {bond : Bond}
  {f : Transaction → Nonce Address → Except Revert (Nonce Address)}

omit [DecidableEq Address] in
theorem forTransactions_ok (h : forTransactions f ts s = .ok s') :
    (∀ holder operator, isApprovedFor holder operator s' = isApprovedFor holder operator s) ∧
      ∀ bond, fold f (itemsOf Transaction.bond ts bond) (s.nonces bond) =
        .ok (s'.nonces bond) := by
  obtain ⟨nonces, hnonces, h⟩ := bind_eq_ok.mp h
  obtain rfl := pure_eq_ok.mp h
  exact ⟨fun _ _ => rfl, run_eq_ok.mp hnonces⟩

theorem isApprovedFor_setApprovalFor (owner operator : Address) (approved : Bool)
    (holder other : Address) :
    Function.update s.operatorApprovals owner
        (Function.update (s.operatorApprovals owner) operator approved) holder other =
      (if owner = holder ∧ operator = other then some approved else none).getD
        (s.operatorApprovals holder other) := by
  rcases eq_or_ne owner holder with rfl | howner
  · rcases eq_or_ne operator other with rfl | hoperator
    · simp
    · simp [hoperator, hoperator.symm]
  · simp [howner, howner.symm]

variable [Zero Address]

/-- **What a call does.** -/
theorem execute_ok (h : execute c s = .ok s') : Returned c s s' := by
  obtain ⟨sender, timestamp, operation⟩ := c
  cases operation with
  | transferFrom src dst ts =>
    obtain ⟨_, _, h⟩ := bind_eq_ok.mp h
    obtain ⟨_, _, h⟩ := bind_eq_ok.mp h
    obtain ⟨hopen, h⟩ := require_bind_eq_ok.mp h
    obtain ⟨done, hdone, h⟩ := bind_eq_ok.mp h
    obtain rfl := pure_eq_ok.mp h
    obtain ⟨happrovals, hnonces⟩ := forTransactions_ok hdone
    exact ⟨hopen, happrovals, _, fun _ _ _ => Internal.transferFrom_ok, hnonces⟩
  | transferAllowanceFrom src dst ts =>
    obtain ⟨_, _, h⟩ := bind_eq_ok.mp h
    obtain ⟨_, _, h⟩ := bind_eq_ok.mp h
    obtain ⟨done, hdone, h⟩ := bind_eq_ok.mp h
    obtain rfl := pure_eq_ok.mp h
    obtain ⟨happrovals, hnonces⟩ := forTransactions_ok hdone
    refine ⟨trivial, happrovals, _, ?_, hnonces⟩
    intro t n n' hn
    obtain ⟨_, _, hn⟩ := bind_eq_ok.mp hn
    exact Internal.transferAllowanceFrom_ok hn
  | issue dst ts =>
    obtain ⟨done, hdone, h⟩ := bind_eq_ok.mp h
    obtain rfl := pure_eq_ok.mp h
    obtain ⟨happrovals, hnonces⟩ := forTransactions_ok hdone
    refine ⟨trivial, happrovals, _, ?_, hnonces⟩
    intro t n n' hn
    obtain ⟨_, _, hn⟩ := bind_eq_ok.mp hn
    exact Internal.issue_ok hn
  | redeem src ts =>
    obtain ⟨_, _, h⟩ := bind_eq_ok.mp h
    obtain ⟨done, hdone, h⟩ := bind_eq_ok.mp h
    obtain rfl := pure_eq_ok.mp h
    obtain ⟨happrovals, hnonces⟩ := forTransactions_ok hdone
    refine ⟨trivial, happrovals, _, ?_, hnonces⟩
    intro t n n' hn
    obtain ⟨_, _, hn⟩ := bind_eq_ok.mp hn
    obtain ⟨_, _, hn⟩ := bind_eq_ok.mp hn
    exact Internal.redeem_ok hn
  | burn src ts =>
    obtain ⟨_, _, h⟩ := bind_eq_ok.mp h
    obtain ⟨hopen, h⟩ := require_bind_eq_ok.mp h
    obtain ⟨done, hdone, h⟩ := bind_eq_ok.mp h
    obtain rfl := pure_eq_ok.mp h
    obtain ⟨happrovals, hnonces⟩ := forTransactions_ok hdone
    exact ⟨hopen, happrovals, _, fun _ _ _ => Internal.burn_ok, hnonces⟩
  | approve spender ts =>
    obtain ⟨happrovals, hnonces⟩ := forTransactions_ok h
    refine ⟨trivial, happrovals, _, ?_, hnonces⟩
    intro t n n' hn
    obtain rfl := Except.ok.inj hn
    exact book_setAllowance sender spender t.amount n
  | setApprovalFor operator approved =>
    obtain rfl := Except.ok.inj h
    refine ⟨trivial, isApprovedFor_setApprovalFor sender operator approved,
      fun _ _ => .error .empty, ?_, fun bond => rfl⟩
    intro t n n' hn
    cases hn

/-- **The books of a bond.** What holds of them before the call, and is kept by every
transaction of the call, holds after it, of the transactions of that bond. -/
theorem execute_induction (I : List Transaction → Book Address → Prop)
    (hinit : I [] (s.nonces bond).book)
    (hstep : ∀ past t b b', I past b → c.Posts t b b' → I (past ++ [t]) b')
    (h : execute c s = .ok s') :
    I (itemsOf Transaction.bond c.operation.transactions bond) (s'.nonces bond).book := by
  obtain ⟨f, hf, hfold⟩ := (execute_ok h).nonces
  refine fold_induction (fun past n => I past n.book) hinit ?_ (hfold bond)
  exact fun past t n n' hI hn => hstep past t n.book n'.book hI (hf t n n' hn)

theorem call_of_ok (h : execute c s = .ok s') : call s c = s' := Calls.apply_of_ok h

theorem call_of_error {e : Revert} (h : execute c s = .error e) : call s c = s :=
  Calls.apply_of_error h

end NeonTests.Erc3475
