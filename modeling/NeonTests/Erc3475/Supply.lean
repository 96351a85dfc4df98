import NeonTests.Erc3475.Nonces

/-!
# ERC3475 — supply

Of every bond, what was issued is with its holders, burned or redeemed, after any
calls by anybody.

* `Accounts` — the invariant, for one bond;
* `Call.Posts.accounts` — one transaction keeps it, whatever the operation;
* `execute_accounts` — so does a call that returns;
* `supply_accounted` — the result over whole runs.
-/

namespace NeonTests.Erc3475

open Batch Ledger Solidity

variable {Address : Type} [DecidableEq Address] [Fintype Address]

-- ---------------------------------------------------------------------------
-- One transaction
-- ---------------------------------------------------------------------------

variable {c : Call Address} {t : Transaction} {b b' : Book Address} {a dst : Address} {x k : Nat}

theorem total_credit : total (b.credit a x).holdings = total b.holdings + x := by
  have := total_update b.holdings a (b.holdings a + x)
  show total (Function.update _ _ _) = _
  omega

theorem total_debit (h : x ≤ b.holdings a) :
    total (b.debit a x).holdings + x = total b.holdings := by
  have := total_update b.holdings a (b.holdings a - x)
  show total (Function.update _ _ _) + x = _
  omega

/-- `issued` is the total ever issued of the bond. -/
structure Accounts (issued : Nat) (b : Book Address) : Prop where
  backed : total b.holdings = b.active
  supply : b.active + b.burned + b.redeemed = issued

def Call.issues (c : Call Address) (t : Transaction) : Nat :=
  match c.operation with
  | .issue _ _ => t.amount.toNat
  | _ => 0

/-- A transfer, the sender and the recipient the same or not. -/
theorem Accounts.transfer (ha : Accounts k b) (hx : x ≤ b.holdings a) :
    Accounts k ((b.debit a x).credit dst x) where
  backed := by
    rw [total_credit, total_debit hx]
    exact ha.backed
  supply := ha.supply

theorem Call.Posts.accounts (h : c.Posts t b b') (ha : Accounts k b) :
    Accounts (k + c.issues t) b' := by
  obtain ⟨sender, timestamp, operation⟩ := c
  have hbacked := ha.backed
  have hsupply := ha.supply
  cases operation with
  | transferFrom src dst ts =>
    obtain ⟨hle, rfl⟩ := h
    exact ha.transfer hle
  | transferAllowanceFrom src dst ts =>
    obtain ⟨hle, _, rfl⟩ := h
    exact (⟨hbacked, hsupply⟩ : Accounts k (b.spend src sender t.amount.toNat)).transfer hle
  | issue dst ts =>
    obtain rfl := h
    refine ⟨?_, ?_⟩
    · show total (b.credit dst t.amount.toNat).holdings = b.active + t.amount.toNat
      rw [total_credit, hbacked]
    · show b.active + t.amount.toNat + b.burned + b.redeemed = k + t.amount.toNat
      omega
  | redeem src ts =>
    obtain ⟨hle, hactive, rfl⟩ := h
    have hdebit := total_debit hle
    refine ⟨?_, ?_⟩
    · show total (b.debit src t.amount.toNat).holdings = b.active - t.amount.toNat
      omega
    · show b.active - t.amount.toNat + b.burned + (b.redeemed + t.amount.toNat) = k
      omega
  | burn src ts =>
    obtain ⟨hle, hactive, rfl⟩ := h
    have hdebit := total_debit hle
    refine ⟨?_, ?_⟩
    · show total (b.debit src t.amount.toNat).holdings = b.active - t.amount.toNat
      omega
    · show b.active - t.amount.toNat + (b.burned + t.amount.toNat) + b.redeemed = k
      omega
  | approve spender ts =>
    obtain rfl := h
    exact ⟨hbacked, hsupply⟩
  | setApprovalFor operator approved => exact h.elim

-- ---------------------------------------------------------------------------
-- Calls
-- ---------------------------------------------------------------------------

def Call.issued (c : Call Address) (bond : Bond) : Nat :=
  ((itemsOf Transaction.bond c.operation.transactions bond).map c.issues).sum

variable [Zero Address] {s s' : Storage Address} {bond : Bond}

theorem execute_accounts (h : execute c s = .ok s') (ha : Accounts k (s.nonces bond).book) :
    Accounts (k + c.issued bond) (s'.nonces bond).book := by
  refine execute_induction (fun past b => Accounts (k + (past.map c.issues).sum) b) ha ?_ h
  intro past t b b' hb hposts
  simpa [Nat.add_assoc] using hposts.accounts hb

-- ---------------------------------------------------------------------------
-- Runs
-- ---------------------------------------------------------------------------

/-- The total ever issued of a bond in a run: by the calls that returned. -/
def totalIssued (bond : Bond) (calls : List (Call Address)) (s : Storage Address) : Nat :=
  ((Calls.returned execute calls s).map fun c => c.issued bond).sum

omit [DecidableEq Address] [Zero Address] in
theorem initial_accounts : Accounts 0 ((initial : Storage Address).nonces bond).book :=
  ⟨total_zero, rfl⟩

/-- The state after any run from the deployment. -/
theorem run_accounts (calls : List (Call Address)) (bond : Bond) :
    Accounts (totalIssued bond calls initial) ((callAll calls initial).nonces bond).book := by
  refine Calls.applyAll_induction (fun (past : List (Call Address)) (s : Storage Address) =>
    Accounts (past.map fun c => c.issued bond).sum (s.nonces bond).book) initial_accounts ?_
  intro past c s s' haccounts hexec
  simpa using execute_accounts hexec haccounts

/-- **Supply.** After any calls by any callers, of every class and nonce all balances together
are the active supply, and what is active, burned and redeemed is what was ever issued. A call
that reverts, wherever in its batch, leaves the storage as it was. -/
theorem supply_accounted (calls : List (Call Address)) :
    (∀ bond n, (callAll calls initial).nonces bond = n →
      total (fun a => (n.balances a).toNat) = n.activeSupply.toNat ∧
      totalIssued bond calls initial =
        n.activeSupply.toNat + n.burnedSupply.toNat + n.redeemedSupply.toNat) ∧
    ∀ (s : Storage Address) c e, execute c s = .error e → call s c = s := by
  refine ⟨?_, ?_⟩
  · rintro bond n rfl
    exact ⟨(run_accounts calls bond).backed, (run_accounts calls bond).supply.symm⟩
  · exact fun s c e => call_of_error

end NeonTests.Erc3475
