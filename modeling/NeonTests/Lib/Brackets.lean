import NeonTests.Lib.Text

/-!
# Brackets — comma-separated items, split at the top level

A comma within brackets belongs to an item. `front` reads up to the first comma or closing
bracket that does not; `Passes` says of a text that it is read over as a whole, at a depth.

A text with its own brackets closed passes (`passes_brackets`), and a list of such items can
be read back from the joined text (`join_injective`).
-/

namespace Brackets

open Text

def after (depth : Nat) (c : Char) : Nat :=
  if c = '(' then depth + 1 else if c = ')' then depth - 1 else depth

/-- What comes before the first comma or closing bracket at the top level, and the rest. -/
def front : (depth : Nat) → List Char → List Char × List Char
  | _, [] => ([], [])
  | depth, c :: rest =>
    if depth = 0 ∧ (c = ',' ∨ c = ')') then ([], c :: rest)
    else (c :: (front (after depth c) rest).1, (front (after depth c) rest).2)

/-- Read from this depth on, the text is read over and leads back to this depth. -/
def Passes (depth : Nat) (text : List Char) : Prop :=
  ∀ rest, front depth (text ++ rest) = (text ++ (front depth rest).1, (front depth rest).2)

/-- The text is where an item ends. -/
def Ends (text : List Char) : Prop := front 0 text = ([], text)

variable {depth : Nat} {c : Char} {a b x y : List Char}

theorem front_cons (h : ¬ (depth = 0 ∧ (c = ',' ∨ c = ')'))) :
    front depth (c :: x) = (c :: (front (after depth c) x).1, (front (after depth c) x).2) := by
  rw [front, if_neg h]

theorem passes_nil : Passes depth [] := fun _ => rfl

theorem passes_append (ha : Passes depth a) (hb : Passes depth b) : Passes depth (a ++ b) := by
  intro rest
  rw [List.append_assoc, ha, hb, List.append_assoc]

theorem passes_singleton (hclose : ¬ (depth = 0 ∧ (c = ',' ∨ c = ')')))
    (hdepth : after depth c = depth) : Passes depth [c] := by
  intro rest
  rw [List.singleton_append, front_cons hclose, hdepth]
  rfl

/-- A text without brackets and commas. -/
theorem passes_plain (h : ∀ c ∈ a, c ≠ '(' ∧ c ≠ ')' ∧ c ≠ ',') : Passes depth a := by
  induction a with
  | nil => exact passes_nil
  | cons c a ih =>
    obtain ⟨hopen, hclose, hcomma⟩ := h c List.mem_cons_self
    have hc : Passes depth [c] := passes_singleton (by simp [hclose, hcomma])
      (by rw [after, if_neg hopen, if_neg hclose])
    exact passes_append hc (ih fun d hd => h d (List.mem_cons_of_mem c hd))

theorem passes_of_notMem (hopen : '(' ∉ a) (hclose : ')' ∉ a) (hcomma : ',' ∉ a) :
    Passes depth a :=
  passes_plain fun _ hc => ⟨fun h => hopen (h ▸ hc), fun h => hclose (h ▸ hc),
    fun h => hcomma (h ▸ hc)⟩

theorem passes_brackets (h : Passes (depth + 1) a) : Passes depth ('(' :: a ++ [')']) := by
  intro rest
  rw [List.cons_append, List.cons_append, front_cons (by simp), after, if_pos rfl,
    List.append_assoc, h, List.singleton_append, front_cons (by simp)]
  simp [after]

/-- Within brackets, commas are read over too. -/
theorem passes_intercalate {xs : List (List Char)} (h : ∀ x ∈ xs, Passes (depth + 1) x) :
    Passes (depth + 1) ([','].intercalate xs) := by
  induction xs with
  | nil => exact passes_nil
  | cons x xs ih =>
    have hxs := ih fun y hy => h y (List.mem_cons_of_mem x hy)
    cases xs with
    | nil =>
      rw [List.intercalate_singleton]
      exact h x List.mem_cons_self
    | cons y ys =>
      rw [List.intercalate_cons_cons]
      have hcomma : Passes (depth + 1) [','] := passes_singleton (by simp) rfl
      exact passes_append (passes_append (h x List.mem_cons_self) hcomma) hxs

-- ---------------------------------------------------------------------------
-- Reading back
-- ---------------------------------------------------------------------------

theorem ends_nil : Ends [] := rfl

theorem ends_comma : Ends (',' :: x) := if_pos ⟨rfl, .inl rfl⟩

theorem front_append (ha : Passes 0 a) (hx : Ends x) : front 0 (a ++ x) = (a, x) := by
  rw [ha, show front 0 x = ([], x) from hx, List.append_nil]

/-- An item is known from what stands in front of its end. -/
theorem append_inj (ha : Passes 0 a) (hb : Passes 0 b) (hx : Ends x) (hy : Ends y)
    (h : a ++ x = b ++ y) : a = b ∧ x = y := by
  have := congrArg (front 0) h
  rw [front_append ha hx, front_append hb hy] at this
  exact Prod.mk.inj this

/-- An item: not empty, and its brackets closed. -/
def IsItem (s : String) : Prop := s ≠ "" ∧ Passes 0 s.toList

/-- What follows the first of several joined items. -/
def behind (xs : List String) : List Char := xs.flatMap fun x => ',' :: x.toList

theorem intercalate_cons (x : String) (xs : List String) :
    [','].intercalate ((x :: xs).map String.toList) = x.toList ++ behind xs := by
  induction xs generalizing x with
  | nil => simp [behind]
  | cons y ys ih =>
    rw [List.map_cons, List.map_cons, List.intercalate_cons_cons, ← List.map_cons, ih,
      List.append_assoc]
    rfl

theorem ends_behind (xs : List String) : Ends (behind xs) := by
  cases xs with
  | nil => exact ends_nil
  | cons x xs => exact ends_comma

theorem behind_injective {xs ys : List String} (hxs : ∀ x ∈ xs, IsItem x)
    (hys : ∀ y ∈ ys, IsItem y) (h : behind xs = behind ys) : xs = ys := by
  induction xs generalizing ys with
  | nil =>
    cases ys with
    | nil => rfl
    | cons y ys => cases h
  | cons x xs ih =>
    cases ys with
    | nil => cases h
    | cons y ys =>
      obtain ⟨hhead, hbehind⟩ := append_inj (hxs x List.mem_cons_self).2
        (hys y List.mem_cons_self).2 (ends_behind xs) (ends_behind ys) (List.cons.inj h).2
      rw [String.toList_inj.mp hhead, ih (fun z hz => hxs z (List.mem_cons_of_mem x hz))
        (fun z hz => hys z (List.mem_cons_of_mem y hz)) hbehind]

theorem toList_join_cons (x : String) (xs : List String) :
    (join ',' (x :: xs)).toList = x.toList ++ behind xs := by
  rw [toList_join, intercalate_cons]

theorem join_cons_ne_empty {x : String} (hx : IsItem x) (xs : List String) :
    join ',' (x :: xs) ≠ "" := by
  intro h
  have hlist := congrArg String.toList h
  rw [toList_join_cons] at hlist
  exact hx.1 (String.toList_eq_nil_iff.mp (List.append_eq_nil_iff.mp hlist).1)

/-- **Joined items can be told apart.** -/
theorem join_injective {xs ys : List String} (hxs : ∀ x ∈ xs, IsItem x) (hys : ∀ y ∈ ys, IsItem y)
    (h : join ',' xs = join ',' ys) : xs = ys := by
  cases xs with
  | nil =>
    cases ys with
    | nil => rfl
    | cons y ys => exact absurd h.symm (join_cons_ne_empty (hys y List.mem_cons_self) ys)
  | cons x xs =>
    cases ys with
    | nil => exact absurd h (join_cons_ne_empty (hxs x List.mem_cons_self) xs)
    | cons y ys =>
      have hlist := congrArg String.toList h
      rw [toList_join_cons, toList_join_cons] at hlist
      -- behind a comma each, and the comma is nothing but a comma
      exact behind_injective hxs hys (congrArg (List.cons ',') hlist)

end Brackets
