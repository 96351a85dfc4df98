import Mathlib.Algebra.Order.Group.Int
import Mathlib.Algebra.Order.Group.Unbundled.Basic
import Mathlib.Data.Nat.Find
import NeonTests.Lib.Fallible

/-!
# Prices — the SOL price with retries

`utils/prices.py`: `get_sol_price` takes the price of the first network that answers, and
`get_sol_price_with_retry` asks again while there is none and the time has not run out.

* `getSolPriceWithRetry_settled_iff` — the call ends with the first price in time or with
  `TimeoutError`, if and only if there is a price at once or at the second attempt, or no time for
  a second one: the `return` is in the body of the loop.
-/

namespace NeonTests.Prices

variable {ε π τ : Type}

/-! ## The source -/

/-- `get_sol_price`, of what `get_price` does for each network: its price may be `None`. -/
def getSolPrice : List (Except ε (Option π)) → Option π
  | [] => none
  | .ok price :: _ => price
  | .error _ :: networks => getSolPrice networks

/-- The first network that answers decides. -/
theorem getSolPrice_eq_some_iff {networks : List (Except ε (Option π))} {price : π} :
    getSolPrice networks = some price ↔
      ∃ failed rest, networks = failed ++ .ok (some price) :: rest ∧
        ∀ answer ∈ failed, ∃ e, answer = .error e := by
  induction networks with
  | nil => simp [getSolPrice]
  | cons answer networks ih =>
    rcases answer with e | first
    · rw [getSolPrice, ih]
      constructor
      · intro ⟨failed, rest, hnetworks, hfailed⟩
        refine ⟨.error e :: failed, rest, by rw [hnetworks, List.cons_append], ?_⟩
        exact List.forall_mem_cons.mpr ⟨⟨e, rfl⟩, hfailed⟩
      · intro ⟨failed, rest, hnetworks, hfailed⟩
        rcases failed with _ | ⟨answer, failed⟩
        · cases (List.cons.inj hnetworks).1
        · exact ⟨failed, rest, (List.cons.inj hnetworks).2,
            (List.forall_mem_cons.mp hfailed).2⟩
    · rw [getSolPrice]
      constructor
      · intro hfirst
        exact ⟨[], networks, by rw [hfirst, List.nil_append], by simp⟩
      · intro ⟨failed, rest, hnetworks, hfailed⟩
        rcases failed with _ | ⟨answer, failed⟩
        · exact Except.ok.inj (List.cons.inj hnetworks).1
        · obtain ⟨e, he⟩ := hfailed answer List.mem_cons_self
          rw [he] at hnetworks
          cases (List.cons.inj hnetworks).1

/-! ## The retries -/

inductive PriceError
  | timeoutError
  deriving DecidableEq, Repr

variable [AddCommGroup τ] [LinearOrder τ]

/-- `attempt i` is what the `i`-th `get_sol_price()` returns and `clock i` what the `i`-th
`time.time()` does; the loop is left in the first round. -/
def getSolPriceWithRetry (attempt : Nat → Option π) (clock : Nat → τ) (timeout : τ) :
    Except PriceError (Option π) :=
  let price := attempt 0
  let started := clock 0
  if price.isNone ∧ clock 1 - started < timeout then
    let price := attempt 1
    .ok price
  else if price.isSome then .ok price
  else .error .timeoutError

/-- The attempt starts before the timeout expires: at once, or after a look at the clock. -/
def InTime (clock : Nat → τ) (timeout : τ) (i : Nat) : Prop :=
  i = 0 ∨ clock i - clock 0 < timeout

/-- The first price in time, or `TimeoutError` if there is none. -/
structure Settled (attempt : Nat → Option π) (clock : Nat → τ) (timeout : τ)
    (outcome : Except PriceError (Option π)) : Prop where
  first : ∀ i price, InTime clock timeout i → attempt i = some price →
    (∀ j < i, attempt j = none) → outcome = .ok (some price)
  expires : (∀ i, InTime clock timeout i → attempt i = none) → outcome = .error .timeoutError

variable {attempt : Nat → Option π} {clock : Nat → τ} {timeout : τ}

theorem inTime_of_le [IsOrderedAddMonoid τ] (hclock : Monotone clock) {i j : Nat}
    (hij : i ≤ j) (h : InTime clock timeout j) : InTime clock timeout i := by
  rcases i with _ | i
  · exact .inl rfl
  · rcases h with hzero | hearly
    · omega
    · exact .inr ((sub_le_sub_right (hclock hij) (clock 0)).trans_lt hearly)

theorem getSolPriceWithRetry_of_first {price : π} (h : attempt 0 = some price) :
    getSolPriceWithRetry attempt clock timeout = .ok (some price) := by
  simp [getSolPriceWithRetry, h]

theorem getSolPriceWithRetry_of_expired (h : attempt 0 = none)
    (hexpired : timeout ≤ clock 1 - clock 0) :
    getSolPriceWithRetry attempt clock timeout = .error .timeoutError := by
  simp [getSolPriceWithRetry, h, not_lt.mpr hexpired]

theorem getSolPriceWithRetry_of_second (h : attempt 0 = none)
    (hearly : clock 1 - clock 0 < timeout) :
    getSolPriceWithRetry attempt clock timeout = .ok (attempt 1) := by
  simp [getSolPriceWithRetry, h, hearly]

theorem settled_of_first {price : π} (h : attempt 0 = some price) :
    Settled attempt clock timeout (.ok (some price)) where
  first i price' _ hprice hbefore := by
    rcases i with _ | i
    · rw [← hprice, h]
    · rw [hbefore 0 (Nat.succ_pos i)] at h
      cases h
  expires hnone := by
    rw [hnone 0 (.inl rfl)] at h
    cases h

theorem settled_of_second {price : π} (h : attempt 0 = none) (hprice : attempt 1 = some price)
    (hearly : clock 1 - clock 0 < timeout) :
    Settled attempt clock timeout (.ok (some price)) where
  first i price' _ hprice' hbefore := by
    rcases i with _ | _ | i
    · rw [h] at hprice'
      cases hprice'
    · rw [← hprice', hprice]
    · rw [hbefore 1 (by omega)] at hprice
      cases hprice
  expires hnone := by
    rw [hnone 1 (.inr hearly)] at hprice
    cases hprice

/-- With the clock not going back, no attempt is in time after the first look at it. -/
theorem settled_of_expired [IsOrderedAddMonoid τ] (hclock : Monotone clock)
    (h : attempt 0 = none) (hexpired : timeout ≤ clock 1 - clock 0) :
    Settled attempt clock timeout (.error .timeoutError) where
  first i price hin hprice _ := by
    rcases i with _ | i
    · rw [h] at hprice
      cases hprice
    · rcases inTime_of_le hclock (Nat.succ_le_succ (Nat.zero_le i)) hin with hzero | hearly
      · cases hzero
      · exact absurd hearly (not_lt.mpr hexpired)
  expires _ := rfl

/-- A missing price is never what the call should end with. -/
theorem not_settled_none [IsOrderedAddMonoid τ] (hclock : Monotone clock) :
    ¬Settled attempt clock timeout (.ok none) := by
  classical
  intro h
  by_cases hprice : ∃ i, attempt i ≠ none ∧ InTime clock timeout i
  · obtain ⟨i, hi, hin⟩ := hprice
    -- the first attempt with a price is in time as well
    have hsome : ∃ i, attempt i ≠ none := ⟨i, hi⟩
    obtain ⟨price, hfirst⟩ := Option.ne_none_iff_exists'.mp (Nat.find_spec hsome)
    have hbefore : ∀ j < Nat.find hsome, attempt j = none :=
      fun j hj => not_not.mp (Nat.find_min hsome hj)
    have hfound := h.first (Nat.find hsome) price
      (inTime_of_le hclock (Nat.find_min' hsome hi) hin) hfirst hbefore
    cases hfound
  · have hnone : ∀ i, InTime clock timeout i → attempt i = none :=
      fun i hin => not_not.mp fun hi => hprice ⟨i, hi, hin⟩
    cases h.expires hnone

/-- The call ends as it should, if and only if it does not need a third attempt. -/
theorem getSolPriceWithRetry_settled_iff [IsOrderedAddMonoid τ] (hclock : Monotone clock) :
    Settled attempt clock timeout (getSolPriceWithRetry attempt clock timeout) ↔
      attempt 0 ≠ none ∨ timeout ≤ clock 1 - clock 0 ∨ attempt 1 ≠ none := by
  rcases hfirst : attempt 0 with _ | price
  · rcases le_or_gt timeout (clock 1 - clock 0) with hexpired | hearly
    · rw [getSolPriceWithRetry_of_expired hfirst hexpired]
      simpa [hexpired] using settled_of_expired hclock hfirst hexpired
    · rw [getSolPriceWithRetry_of_second hfirst hearly]
      rcases hsecond : attempt 1 with _ | price
      · simpa [not_le.mpr hearly] using not_settled_none hclock
      · simpa using settled_of_second hfirst hsecond hearly
  · rw [getSolPriceWithRetry_of_first hfirst]
    simpa using settled_of_first hfirst

/-- A price at the attempt with this number, on a clock of seconds. -/
def priceAt (n i : Nat) : Option Int := if i = n then some 150 else none

def seconds (i : Nat) : Int := 5 * i

theorem seconds_le {i j : Nat} (hij : i ≤ j) : seconds i ≤ seconds j :=
  Int.mul_le_mul_of_nonneg_left (Int.ofNat_le.mpr hij) (Int.natCast_nonneg 5)

theorem getSolPriceWithRetry_settled_iff_second :
    Settled (priceAt 1) seconds 120 (getSolPriceWithRetry (priceAt 1) seconds 120) :=
  (getSolPriceWithRetry_settled_iff fun _ _ => seconds_le).mpr (.inr (.inr (by decide)))

/-- With a price at the third attempt, in time, none is returned. -/
theorem getSolPriceWithRetry_third :
    getSolPriceWithRetry (priceAt 2) seconds 120 = .ok none ∧
    ¬Settled (priceAt 2) seconds 120 (getSolPriceWithRetry (priceAt 2) seconds 120) := by
  have hreturned : getSolPriceWithRetry (priceAt 2) seconds 120 = .ok none := by decide
  rw [hreturned]
  exact ⟨rfl, not_settled_none fun _ _ => seconds_le⟩

end NeonTests.Prices
