import Mathlib.Data.List.Nodup

/-!
# Occurrences — a list with its repetitions numbered

`occurrences [] xs` pairs each item with the number of times it occurred before:
no pair twice (`nodup_occurrences`), and exactly the numbers below an item's count
(`mem_occurrences`). `numbered` is the usual way to spell such a pair, the item
followed by a space and its number; it can be read back (`numbered_inj`).

`labels` numbers the names that occur more than once and leaves the others
alone. The result has no name twice exactly if no name that is left alone is one
of the numbered ones (`nodup_labels_iff`).
-/

namespace Occurrences

variable {α : Type} [DecidableEq α]

/-- Each item with its number, `seen` having come before. -/
def occurrences (seen : List α) : List α → List (α × Nat)
  | [] => []
  | x :: rest => (x, seen.count x) :: occurrences (x :: seen) rest

theorem mem_occurrences {x : α} {k : Nat} {seen xs : List α} :
    (x, k) ∈ occurrences seen xs ↔ seen.count x ≤ k ∧ k < seen.count x + xs.count x := by
  induction xs generalizing seen with
  | nil =>
    simp only [occurrences, List.not_mem_nil, List.count_nil, false_iff]
    omega
  | cons y rest ih =>
    rw [occurrences, List.mem_cons, ih, Prod.mk.injEq, List.count_cons, List.count_cons]
    by_cases h : y = x
    · subst h
      simp only [beq_self_eq_true, if_true, true_and]
      omega
    · have hbeq : (y == x) = false := beq_false_of_ne h
      have hne : x ≠ y := fun e => h e.symm
      simp only [hbeq, hne, false_and, false_or]
      exact Iff.rfl

theorem nodup_occurrences (seen xs : List α) : (occurrences seen xs).Nodup := by
  induction xs generalizing seen with
  | nil => exact List.nodup_nil
  | cons y rest ih =>
    refine List.nodup_cons.mpr ⟨?_, ih (y :: seen)⟩
    rw [mem_occurrences, List.count_cons_self]
    omega

theorem map_fst_occurrences (seen xs : List α) : (occurrences seen xs).map Prod.fst = xs := by
  induction xs generalizing seen with
  | nil => rfl
  | cons y rest ih => rw [occurrences, List.map_cons, ih]

/-- The occurrences of one item, in order. -/
theorem filter_occurrences (x : α) (seen xs : List α) :
    ((occurrences seen xs).filter fun o => o.1 = x) =
      (List.range' (seen.count x) (xs.count x)).map fun k => (x, k) := by
  induction xs generalizing seen with
  | nil => rfl
  | cons y rest ih =>
    rw [occurrences, List.count_cons]
    by_cases h : y = x
    · subst h
      rw [List.filter_cons_of_pos (by simp), ih, List.count_cons_self]
      simp [List.range'_succ]
    · rw [List.filter_cons_of_neg (by simpa using h), ih, List.count_cons_of_ne h]
      simp [h]

omit [DecidableEq α] in
/-- Two lists cut at the first `x` agree in both parts. -/
theorem cut_inj {x : α} {l r l' r' : List α} (hl : x ∉ l) (hl' : x ∉ l')
    (h : l ++ x :: r = l' ++ x :: r') : l = l' ∧ r = r' := by
  induction l generalizing l' with
  | nil =>
    cases l' with
    | nil => exact ⟨rfl, (List.cons.inj h).2⟩
    | cons y l' => exact (hl' ((List.cons.inj h).1 ▸ List.mem_cons_self)).elim
  | cons y l ih =>
    cases l' with
    | nil => exact (hl ((List.cons.inj h).1 ▸ List.mem_cons_self)).elim
    | cons y' l' =>
      obtain ⟨rfl, htail⟩ := List.cons.inj h
      obtain ⟨rfl, hr⟩ := ih (fun hx => hl (List.mem_cons_of_mem _ hx))
        (fun hx => hl' (List.mem_cons_of_mem _ hx)) htail
      exact ⟨rfl, hr⟩

/-- `name` and a number, as `f"{name} {number}"` writes them. -/
def numbered (name : String) (number : Nat) : String := name ++ " " ++ toString number

theorem space_notMem_digits (n : Nat) : ' ' ∉ (toString n).toList := by
  intro h
  have hdigit := Nat.isDigit_of_mem_toDigits (b := 10) (n := n) (c := ' ') (by omega) (by omega)
  rw [show toString n = Nat.repr n from rfl, Nat.repr, String.toList_ofList] at h
  exact absurd (hdigit h) (by decide)

/-- A name's number is what follows its last space. -/
theorem numbered_inj {a b : String} {k l : Nat} (h : numbered a k = numbered b l) :
    a = b ∧ k = l := by
  have hlist : a.toList ++ ' ' :: (toString k).toList = b.toList ++ ' ' :: (toString l).toList := by
    have := congrArg String.toList h
    have hspace : " ".toList = [' '] := rfl
    simp only [numbered, String.toList_append] at this
    rwa [hspace, List.append_assoc, List.append_assoc] at this
  have hrev := congrArg List.reverse hlist
  rw [List.reverse_append, List.reverse_append, List.reverse_cons, List.reverse_cons,
    List.append_assoc, List.append_assoc, List.singleton_append, List.singleton_append] at hrev
  obtain ⟨hdigits, hname⟩ := cut_inj
    (by rw [List.mem_reverse]; exact space_notMem_digits k)
    (by rw [List.mem_reverse]; exact space_notMem_digits l) hrev
  refine ⟨String.toList_inj.mp (List.reverse_injective hname), ?_⟩
  have hvalue := congrArg (fun ds => Nat.ofDigitChars 10 ds 0) (List.reverse_injective hdigits)
  simpa [Nat.toString_eq_ofList_toDigits] using hvalue

-- ---------------------------------------------------------------------------
-- Labels
-- ---------------------------------------------------------------------------

/-- The spelling of an occurrence: numbered from 1 if the name is repeated. -/
def label (names : List String) (x : String × Nat) : String :=
  if 1 < names.count x.1 then numbered x.1 (x.2 + 1) else x.1

def labels (names : List String) : List String := (occurrences [] names).map (label names)

/-- `x` is a repeated name with one of its numbers. -/
def Numbered (names : List String) (x : String) : Prop :=
  ∃ b k, 1 < names.count b ∧ 1 ≤ k ∧ k ≤ names.count b ∧ x = numbered b k

variable {names : List String} {x : String}

theorem mem_occurrences_nil {k : Nat} : (x, k) ∈ occurrences [] names ↔ k < names.count x := by
  rw [mem_occurrences, List.count_nil]
  omega

theorem mem_labels_iff : x ∈ labels names ↔ names.count x = 1 ∨ Numbered names x := by
  rw [labels, List.mem_map]
  constructor
  · rintro ⟨⟨b, k⟩, hmem, hx⟩
    rw [mem_occurrences_nil] at hmem
    simp only [label] at hx
    split at hx
    · next hb => exact .inr ⟨b, k + 1, hb, by omega, by omega, hx.symm⟩
    · next hb =>
      subst hx
      exact .inl (by omega)
  · rintro (hx | ⟨b, k, hb, hpos, hle, rfl⟩)
    · refine ⟨(x, 0), mem_occurrences_nil.mpr (by omega), ?_⟩
      exact if_neg (by show ¬ 1 < names.count x; omega)
    · refine ⟨(b, k - 1), mem_occurrences_nil.mpr (by omega), ?_⟩
      have hk : k - 1 + 1 = k := by omega
      simp only [label, if_pos hb, hk]

theorem nodup_labels_iff :
    (labels names).Nodup ↔ ∀ x, names.count x = 1 → ¬ Numbered names x := by
  rw [labels, List.nodup_map_iff_inj_on (nodup_occurrences [] names)]
  constructor
  · rintro hinj x hx ⟨b, k, hb, hpos, hle, rfl⟩
    -- the name left alone and the numbered one are two occurrences of one label
    have hone : (numbered b k, 0) ∈ occurrences [] names := mem_occurrences_nil.mpr (by omega)
    have htwo : (b, k - 1) ∈ occurrences [] names := mem_occurrences_nil.mpr (by omega)
    have hk : k - 1 + 1 = k := by omega
    have hlabel : label names (numbered b k, 0) = label names (b, k - 1) := by
      simp only [label, if_pos hb, hk, hx, Nat.lt_irrefl, if_false]
    have heq := congrArg Prod.fst (hinj _ hone _ htwo hlabel)
    rw [← (show numbered b k = b from heq)] at hb
    omega
  · rintro h ⟨a, k⟩ ha ⟨b, l⟩ hb heq
    rw [mem_occurrences_nil] at ha hb
    simp only [label] at heq
    split at heq
    · next hra =>
      split at heq
      · obtain ⟨rfl, hkl⟩ := numbered_inj heq
        exact Prod.ext rfl (by dsimp only; omega)
      · next hrb => exact (h b (by omega) ⟨a, k + 1, hra, by omega, by omega, heq.symm⟩).elim
    · next hra =>
      split at heq
      · next hrb => exact (h a (by omega) ⟨b, l + 1, hrb, by omega, by omega, heq⟩).elim
      · subst heq
        exact Prod.ext rfl (by dsimp only; omega)

/-- No label in common, in terms of the names alone. -/
structure Apart (names names' : List String) : Prop where
  plain : ∀ x, ¬ (names.count x = 1 ∧ names'.count x = 1)
  repeated : ∀ b, ¬ (1 < names.count b ∧ 1 < names'.count b)
  left : ∀ x, names.count x = 1 → ¬ Numbered names' x
  right : ∀ x, names'.count x = 1 → ¬ Numbered names x

theorem disjoint_labels_iff {names' : List String} :
    (labels names).Disjoint (labels names') ↔ Apart names names' := by
  constructor
  · intro h
    have hboth : ∀ x, (names.count x = 1 ∨ Numbered names x) →
        ¬ (names'.count x = 1 ∨ Numbered names' x) := by
      intro x hx hx'
      exact h (mem_labels_iff.mpr hx) (mem_labels_iff.mpr hx')
    refine ⟨fun x hx => hboth x (.inl hx.1) (.inl hx.2), ?_,
      fun x hx hx' => hboth x (.inl hx) (.inr hx'), fun x hx hx' => hboth x (.inr hx') (.inl hx)⟩
    -- a name repeated in both gets the number 1 in both
    rintro b ⟨hb, hb'⟩
    exact hboth (numbered b 1) (.inr ⟨b, 1, hb, Nat.le_refl 1, by omega, rfl⟩)
      (.inr ⟨b, 1, hb', Nat.le_refl 1, by omega, rfl⟩)
  · intro h x hx hx'
    rw [mem_labels_iff] at hx hx'
    rcases hx with hx | hx
    · rcases hx' with hx' | hx'
      · exact h.plain x ⟨hx, hx'⟩
      · exact h.left x hx hx'
    · rcases hx' with hx' | hx'
      · exact h.right x hx' hx
      · obtain ⟨b, k, hb, _, _, rfl⟩ := hx
        obtain ⟨b', k', hb', _, _, heq⟩ := hx'
        obtain ⟨rfl, _⟩ := numbered_inj heq
        exact h.repeated b ⟨hb, hb'⟩

end Occurrences
