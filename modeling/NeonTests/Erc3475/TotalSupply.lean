import NeonTests.Erc3475.Authorisation

/-!
# ERC3475 — reading the total supply

Each counter of a bond stays inside its word because the operation that raises it
reverts otherwise. Their sum is formed nowhere but in `totalSupply`: burning and
redeeming make room in the active supply for what is issued next, and no operation
bounds what was issued in all.

* `totalSupply_eq_ok` — the view returns the sum exactly;
* `totalIssued_le_append` — what was issued only grows along a run;
* `totalSupply_readable_iff` — the view can be read throughout a run exactly if the
  issues of the run stay below 2^256 in all.
-/

namespace NeonTests.Erc3475

open Fallible Solidity

variable {Address : Type}

-- ---------------------------------------------------------------------------
-- The views
-- ---------------------------------------------------------------------------

def activeSupply (classId nonceId : Uint256) (s : Storage Address) : Uint256 :=
  (s.nonces (classId, nonceId)).activeSupply

def burnedSupply (classId nonceId : Uint256) (s : Storage Address) : Uint256 :=
  (s.nonces (classId, nonceId)).burnedSupply

def redeemedSupply (classId nonceId : Uint256) (s : Storage Address) : Uint256 :=
  (s.nonces (classId, nonceId)).redeemedSupply

def totalSupply (classId nonceId : Uint256) (s : Storage Address) : Except Revert Uint256 := do
  let supply ← checkedAdd (activeSupply classId nonceId s) (burnedSupply classId nonceId s)
  checkedAdd supply (redeemedSupply classId nonceId s)

/-- `totalSupply` does not revert, and is the sum of the three supplies. -/
def TotalReadable (classId nonceId : Uint256) (s : Storage Address) : Prop :=
  ∃ supply, totalSupply classId nonceId s = .ok supply ∧
    supply.toNat = (activeSupply classId nonceId s).toNat +
      (burnedSupply classId nonceId s).toNat + (redeemedSupply classId nonceId s).toNat

variable {classId nonceId supply : Uint256} {s : Storage Address}

theorem totalSupply_eq_ok :
    totalSupply classId nonceId s = .ok supply ↔
      supply.toNat = (activeSupply classId nonceId s).toNat +
        (burnedSupply classId nonceId s).toNat + (redeemedSupply classId nonceId s).toNat := by
  unfold totalSupply
  rw [bind_eq_ok]
  constructor
  · rintro ⟨x, hx, h⟩
    rw [checkedAdd_eq_ok.mp h, checkedAdd_eq_ok.mp hx]
  · intro h
    have hlt := supply.isLt
    obtain ⟨x, hx⟩ : ∃ x : Uint256, x.toNat = (activeSupply classId nonceId s).toNat +
        (burnedSupply classId nonceId s).toNat := exists_toNat (by omega)
    exact ⟨x, checkedAdd_eq_ok.mpr hx, checkedAdd_eq_ok.mpr (by rw [h, hx])⟩

/-- Readable is: the sum is a number of the width. -/
theorem totalReadable_iff :
    TotalReadable classId nonceId s ↔
      (activeSupply classId nonceId s).toNat + (burnedSupply classId nonceId s).toNat +
        (redeemedSupply classId nonceId s).toNat < 2 ^ 256 := by
  constructor
  · rintro ⟨supply, -, hsum⟩
    exact hsum ▸ supply.isLt
  · intro hlt
    obtain ⟨supply, hsum⟩ := exists_toNat hlt
    exact ⟨supply, totalSupply_eq_ok.mpr hsum, hsum⟩

-- ---------------------------------------------------------------------------
-- Runs
-- ---------------------------------------------------------------------------

variable [DecidableEq Address] [Zero Address]

theorem totalIssued_le_append (bond : Bond) (past rest : List (Call Address))
    (s : Storage Address) : totalIssued bond past s ≤ totalIssued bond (past ++ rest) s := by
  unfold totalIssued
  rw [Calls.returned_append, List.map_append, List.sum_append]
  exact Nat.le_add_right _ _

variable [Fintype Address]

/-- In a reached state the sum is what was ever issued. -/
theorem totalReadable_run_iff (calls : List (Call Address)) :
    TotalReadable classId nonceId (callAll calls initial) ↔
      totalIssued (classId, nonceId) calls initial < 2 ^ 256 := by
  rw [totalReadable_iff, ← (run_accounts calls (classId, nonceId)).supply]
  rfl

/-- **The total supply can be read.** Of every class and nonce, after every part of a run
of calls by anybody, if and only if what the run issues of it stays below 2^256 in all. -/
theorem totalSupply_readable_iff (calls : List (Call Address)) (classId nonceId : Uint256) :
    (∀ past rest, calls = past ++ rest → TotalReadable classId nonceId (callAll past initial)) ↔
      totalIssued (classId, nonceId) calls initial < 2 ^ 256 := by
  constructor
  · intro h
    exact (totalReadable_run_iff calls).mp (h calls [] (List.append_nil calls).symm)
  · rintro h past rest rfl
    exact (totalReadable_run_iff past).mpr
      (lt_of_le_of_lt (totalIssued_le_append _ past rest initial) h)

/-- All there can be is issued to the lender, who burns it; then 1 more is issued. -/
def reissueRun : List (Call Account) :=
  [⟨.bank, 0, .issue .lender [⟨0, 0, BitVec.allOnes 256⟩]⟩,
    ⟨.lender, 0, .burn .lender [⟨0, 0, BitVec.allOnes 256⟩]⟩,
    ⟨.bank, 0, .issue .lender [⟨0, 0, 1⟩]⟩]

theorem totalSupply_reverts_after_reissue :
    totalSupply 0 0 (callAll reissueRun initial) = .error .overflow ∧
      ¬ TotalReadable 0 0 (callAll reissueRun initial) := by
  have herror : totalSupply 0 0 (callAll reissueRun initial) = .error .overflow := by decide
  refine ⟨herror, ?_⟩
  rintro ⟨supply, hok, -⟩
  rw [herror] at hok
  cases hok

end NeonTests.Erc3475
