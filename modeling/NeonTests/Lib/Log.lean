import Mathlib.Data.List.Basic

/-!
# Logs — the last entry under a key

A log of which each item may set one key. What a map that is kept up to date shows is
`latest`; `latest_concat` is what one more item does to it.
-/

namespace Logs

variable {γ κ ν : Type} [DecidableEq κ]

/-- What an item sets of a key. -/
def sets (entry : γ → Option (κ × ν)) (k : κ) (c : γ) : Option ν :=
  match entry c with
  | some (j, v) => if j = k then some v else none
  | none => none

def latest (entry : γ → Option (κ × ν)) (log : List γ) (k : κ) : Option ν :=
  log.reverse.findSome? (sets entry k)

variable {entry : γ → Option (κ × ν)} {log : List γ} {c : γ}

theorem sets_of_none (h : entry c = none) (k : κ) : sets entry k c = none := by simp [sets, h]

theorem latest_concat (log : List γ) (c : γ) (k : κ) :
    latest entry (log ++ [c]) k = (sets entry k c).or (latest entry log k) := by
  rw [latest, List.reverse_append, List.findSome?_append]
  simp [latest]

end Logs
