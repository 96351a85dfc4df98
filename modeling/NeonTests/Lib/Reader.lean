import NeonTests.Lib.Endian

/-!
# Readers — formats that are read off the front of a string

A reader takes what it needs off the front of a string and leaves the rest to the
next one. `Undoes r s a` is its correctness for one message: in front of anything,
`s` is read as `a` and nothing else is touched. The rules follow the way a message
is put together; `unambiguous` is what they are good for: several messages in a row
can be cut apart again in one way only.
-/

namespace Readers

open Endian

variable {τ α β : Type}

abbrev Reader (τ α : Type) := StateT (List τ) Option α

/-- `r` reads `s` as `a`, whatever follows. -/
def Undoes (r : Reader τ α) (s : List τ) (a : α) : Prop :=
  ∀ rest, r (s ++ rest) = some (a, rest)

variable {r : Reader τ α} {s t : List τ} {a : α} {b : β}

theorem Undoes.pure (a : α) : Undoes (Pure.pure a : Reader τ α) [] a := fun _ => rfl

/-- One message behind the other. -/
theorem Undoes.bind {f : α → Reader τ β} (hr : Undoes r s a) (hf : Undoes (f a) t b) :
    Undoes (r >>= f) (s ++ t) b := by
  intro rest
  show (r (s ++ t ++ rest)).bind (fun x => f x.1 x.2) = some (b, rest)
  rw [List.append_assoc, hr]
  exact hf rest

/-- What is read, put into another form. -/
theorem Undoes.bind_pure {f : α → β} (hr : Undoes r s a) (hb : f a = b) :
    Undoes (r >>= fun x => Pure.pure (f x)) s b := by
  subst hb
  rw [← List.append_nil s]
  exact hr.bind (.pure _)

-- ---------------------------------------------------------------------------
-- Fields
-- ---------------------------------------------------------------------------

/-- The next `n` elements. -/
def field (n : Nat) : Reader τ (List τ) := fun s =>
  if n ≤ s.length then some (s.take n, s.drop n) else none

theorem undoes_field {n : Nat} (h : s.length = n) : Undoes (field n) s s := by
  intro rest
  rw [field, if_pos (by rw [List.length_append]; omega), List.take_left' h, List.drop_left' h]

/-- A field of fixed length and a number in it. -/
def leUint (w : Nat) : Reader UInt8 Nat := do
  let bytes ← field w
  pure (leNat bytes)

theorem undoes_leUint {w n : Nat} (h : n < 256 ^ w) : Undoes (leUint w) (leBytes w n) n :=
  (undoes_field (length_leBytes w n)).bind_pure (leNat_leBytes h)

/-- The same reader, `n` times. -/
def repeated (r : Reader τ α) : Nat → Reader τ (List α)
  | 0 => pure []
  | n + 1 => do
    let x ← r
    let xs ← repeated r n
    pure (x :: xs)

theorem undoes_repeated {write : α → List τ} {xs : List α} (h : ∀ x ∈ xs, Undoes r (write x) x) :
    Undoes (repeated r xs.length) (xs.flatMap write) xs := by
  induction xs with
  | nil => exact .pure []
  | cons x xs ih =>
    have hrest := ih fun y hy => h y (List.mem_cons_of_mem _ hy)
    exact (h x List.mem_cons_self).bind (hrest.bind_pure rfl)

-- ---------------------------------------------------------------------------
-- Messages in a row
-- ---------------------------------------------------------------------------

/-- **Unambiguous.** If every message is read back by `r`, and `r` finds nothing in
an empty string, then messages written one behind the other are determined by the
string they make. -/
theorem unambiguous (hempty : r [] = none) {ss ts : List (List τ)} {xs ys : List α}
    (hx : List.Forall₂ (Undoes r) ss xs) (hy : List.Forall₂ (Undoes r) ts ys)
    (h : ss.flatten = ts.flatten) : xs = ys := by
  have hread {u : List τ} {us : List (List τ)} {c : α} (hu : Undoes r u c) :
      r (u :: us).flatten = some (c, us.flatten) := by
    rw [List.flatten_cons]
    exact hu us.flatten
  induction hx generalizing ts ys with
  | nil =>
    cases hy with
    | nil => rfl
    | cons hv _ =>
      have hnone := (hread hv).symm.trans ((congrArg r h.symm).trans hempty)
      cases hnone
  | cons hu _ ih =>
    cases hy with
    | nil =>
      have hnone := (hread hu).symm.trans ((congrArg r h).trans hempty)
      cases hnone
    | cons hv hvs =>
      have heq := (hread hu).symm.trans ((congrArg r h).trans (hread hv))
      obtain ⟨rfl, hrest⟩ := Prod.mk.inj (Option.some.inj heq)
      rw [ih hvs hrest]

end Readers
