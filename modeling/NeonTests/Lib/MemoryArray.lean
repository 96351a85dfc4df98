import NeonTests.Lib.Solidity

/-!
# Arrays in memory

Solidity's memory arrays have a length that is fixed when they are made. A function that
does not know how many results there will be makes an array that is long enough, fills it
from the front and sets its length in the end.

* `element_padded`, `setElement_padded`, `setElement_end` — the array while it is filled;
* `take_padded` — what is left when its length is set;
* `search_padded` — looking for an element among those filled in.
-/

namespace Solidity

open Fallible

variable {α : Type}

/-- `xs[i]` -/
def element (xs : List α) (i : Nat) : Except Revert α :=
  match xs[i]? with
  | some x => .ok x
  | none => .error .outOfBounds

/-- `xs[i] = x` -/
def setElement (xs : List α) (i : Nat) (x : α) : Except Revert (List α) :=
  if i < xs.length then .ok (xs.set i x) else .error .outOfBounds

/-- `mstore(xs, n)`, for `n` up to the length. -/
def setLength (xs : List α) (n : Nat) : List α := xs.take n

/-- `for (i = 0; i < n; i++) if (p(xs[i])) { .. break; }`: where the loop stops. -/
def search (p : α → Bool) (xs : List α) : Nat → Nat → Except Revert (Option Nat)
  | 0, _ => .ok none
  | n + 1, i => do
    let x ← element xs i
    if p x then .ok (some i) else search p xs n (i + 1)

/-- An array of `n` elements, filled with `xs` so far. -/
def padded (n : Nat) (zero : α) (xs : List α) : List α := xs ++ List.replicate (n - xs.length) zero

variable {n i : Nat} {zero x : α} {xs : List α} {p : α → Bool}

theorem padded_nil : padded n zero [] = List.replicate n zero := rfl

theorem length_padded (h : xs.length ≤ n) : (padded n zero xs).length = n := by
  rw [padded, List.length_append, List.length_replicate]
  omega

theorem element_padded (h : i < xs.length) : element (padded n zero xs) i = .ok xs[i] := by
  have hget : (padded n zero xs)[i]? = some xs[i] := by
    rw [padded, List.getElem?_append_left h, List.getElem?_eq_getElem h]
  rw [element, hget]

theorem setElement_padded (h : i < xs.length) :
    setElement (padded n zero xs) i x = .ok (padded n zero (xs.set i x)) := by
  have hlt : i < (padded n zero xs).length := by
    rw [padded, List.length_append]
    omega
  rw [setElement, if_pos hlt, padded, padded, List.set_append_left _ _ h, List.length_set]

/-- Filling in one more. -/
theorem setElement_end (h : xs.length < n) :
    setElement (padded n zero xs) xs.length x = .ok (padded n zero (xs ++ [x])) := by
  obtain ⟨k, rfl⟩ := Nat.exists_eq_add_of_lt h
  have hroom : xs.length + k + 1 - xs.length = k + 1 := by omega
  have hrest : xs.length + k + 1 - (xs ++ [x]).length = k := by
    rw [List.length_append, List.length_singleton]
    omega
  have hlt : xs.length < (padded (xs.length + k + 1) zero xs).length := by
    rw [length_padded h.le]
    exact h
  rw [setElement, if_pos hlt, padded, padded, hroom, hrest, List.set_append_right _ _ le_rfl,
    Nat.sub_self, List.replicate_succ, List.set_cons_zero, List.append_assoc]
  rfl

theorem take_padded (n : Nat) (zero : α) (xs : List α) :
    setLength (padded n zero xs) xs.length = xs := by
  rw [setLength, padded, List.take_left]

theorem search_padded (n : Nat) (zero : α) (xs : List α) (p : α → Bool) :
    search p (padded n zero xs) xs.length 0 = .ok (xs.findIdx? p) := by
  suffices h : ∀ rest past, xs = past ++ rest →
      search p (padded n zero xs) rest.length past.length =
        .ok ((rest.findIdx? p).map (· + past.length)) by
    simpa using h xs [] rfl
  intro rest
  induction rest with
  | nil =>
    intro past _
    rfl
  | cons x rest ih =>
    intro past hxs
    have hlt : past.length < xs.length := by
      rw [hxs, List.length_append, List.length_cons]
      omega
    have hget : xs[past.length] = x := by
      simp only [hxs, List.getElem_append_right le_rfl, Nat.sub_self, List.getElem_cons_zero]
    rw [List.length_cons, search, element_padded hlt, ok_bind, hget, List.findIdx?_cons]
    by_cases hp : p x = true
    · rw [if_pos hp, if_pos hp]
      simp
    · have hnext := ih (past ++ [x]) (by rw [hxs, List.append_assoc]; rfl)
      rw [List.length_append, List.length_singleton] at hnext
      rw [if_neg hp, if_neg hp, hnext, Option.map_map]
      congr 2
      funext i
      show i + (past.length + 1) = i + 1 + past.length
      omega

end Solidity
