import NeonTests.Rlp.Framing
import NeonTests.Transaction.Definitions

/-!
# Legacy transactions — malformed input

`from_string` reads one item, drops what is behind it and assigns the elements of what it
has read to nine names. It never compares a length with what is there.

* `fromString_returns_iff` — the input it accepts, in terms of what prefixes claim;
* `fromString_strict_iff` — the kinds of malformed input among it.
-/

namespace NeonTests.Transaction

open Endian Fallible Python Rlp RlpFrame

/-- One list of nine byte strings, all of it there and nothing behind it. -/
def Strict (s : Bytes) : Prop :=
  ∃ items : List Bytes, items.length = 9 ∧ (∀ item ∈ items, StringItem item) ∧
    ListItem items.flatten s

/-- Nine fields of which the numbers are as asked. -/
def NineFields {α : Type} (P : α → Prop) : List α → Prop
  | [nonce, gasPrice, gasLimit, _, value, _, v, r, s] =>
    P nonce ∧ P gasPrice ∧ P gasLimit ∧ P value ∧ P v ∧ P r ∧ P s
  | _ => False

/-- A list whose payload falls into nine pieces, with byte strings for the numbers. -/
def NineClaimed (s : Bytes) : Prop :=
  IsList s ∧ NineFields (fun piece => ¬ IsList piece) (pieces (payload s))

/-- The kinds of input that are read as a transaction and are none. -/
inductive Malformed (s : Bytes) : Prop
  /-- a byte string, whose nine bytes are taken for nine numbers -/
  | string (h : ¬ IsList s) (hnine : (payload s).length = 9)
  /-- bytes behind the list -/
  | trailing (h : NineClaimed s) (hlt : claimed s < s.length)
  /-- the input ends before the list does -/
  | truncated (h : NineClaimed s) (hlt : s.length < claimed s)
  /-- a field that claims more than the list has left -/
  | overlong (h : NineClaimed s) (piece : Bytes) (hmem : piece ∈ pieces (payload s))
      (hlt : piece.length < claimed piece)
  /-- a list in the place of `to` or of `data` -/
  | nested (h : NineClaimed s) (piece : Bytes) (hmem : piece ∈ pieces (payload s))
      (hlist : IsList piece)

-- ---------------------------------------------------------------------------
-- What is accepted
-- ---------------------------------------------------------------------------

section

variable {α β : Type}

theorem NineFields.length_eq {P : α → Prop} {xs : List α} (h : NineFields P xs) :
    xs.length = 9 := by
  unfold NineFields at h
  split at h
  · rfl
  · exact h.elim

theorem nineFields_of_forall {P : α → Prop} : ∀ {xs : List α}, xs.length = 9 →
    (∀ x ∈ xs, P x) → NineFields P xs
  | [_, _, _, _, _, _, _, _, _], _, h => by
    simp only [List.forall_mem_cons] at h
    obtain ⟨h1, h2, h3, -, h5, -, h7, h8, h9, -⟩ := h
    exact ⟨h1, h2, h3, h5, h7, h8, h9⟩

/-- Fields that correspond one by one. -/
theorem nineFields_congr {P : α → Prop} {Q : β → Prop} {xs : List α} {ys : List β}
    (h : List.Forall₂ (fun x y => P x ↔ Q y) xs ys) : NineFields P xs ↔ NineFields Q ys := by
  rcases h with _ | ⟨h1, _ | ⟨h2, _ | ⟨h3, _ | ⟨h4, _ | ⟨h5, _ | ⟨h6, _ | ⟨h7, _ | ⟨h8, _ |
    ⟨h9, _ | ⟨h10, h⟩⟩⟩⟩⟩⟩⟩⟩⟩⟩
  all_goals simp only [NineFields, *]

end

variable {text : PyVal → String} {s rest : Bytes} {v : PyVal} {vs : List PyVal}

theorem getInt_returns_iff {piece : Bytes} (h : Reads piece v) :
    ¬ IsList piece ↔ ∃ n, getInt text v = .ok n := by
  unfold Reads at h
  by_cases hlist : IsList piece
  · rw [if_pos hlist] at h
    cases h <;> simp [hlist, getInt]
  · rw [if_neg hlist] at h
    cases h <;> simp [hlist, getInt]

theorem fromString_elements (hunpack : unpack s = .ok (v, rest)) (hvs : elements v = .ok vs) :
    (∃ t, fromString text s = .ok t) ↔ NineFields (fun v => ∃ n, getInt text v = .ok n) vs := by
  unfold fromString
  rw [hunpack, ok_bind]
  simp only [hvs, ok_bind]
  unfold NineFields
  split
  · simp only [bind_eq_ok, pure_eq_ok]
    constructor
    · rintro ⟨t, n1, h1, n2, h2, n3, h3, n4, h4, n5, h5, n6, h6, n7, h7, rfl⟩
      exact ⟨⟨n1, h1⟩, ⟨n2, h2⟩, ⟨n3, h3⟩, ⟨n4, h4⟩, ⟨n5, h5⟩, ⟨n6, h6⟩, n7, h7⟩
    · rintro ⟨⟨n1, h1⟩, ⟨n2, h2⟩, ⟨n3, h3⟩, ⟨n4, h4⟩, ⟨n5, h5⟩, ⟨n6, h6⟩, n7, h7⟩
      exact ⟨_, n1, h1, n2, h2, n3, h3, n4, h4, n5, h5, n6, h6, n7, h7, rfl⟩
  · simp

/-- The bytes of a `bytes` object are numbers. -/
theorem nineFields_bytes (b : Bytes) :
    NineFields (fun v => ∃ n, getInt text v = .ok n) (b.map fun c => PyVal.int c.toNat) ↔
      b.length = 9 := by
  constructor
  · intro h
    simpa using h.length_eq
  · intro h
    refine nineFields_of_forall (by simpa using h) ?_
    intro x hx
    obtain ⟨c, -, rfl⟩ := List.mem_map.mp hx
    exact ⟨_, rfl⟩

/-- **What is accepted.** -/
theorem fromString_returns_iff (text : PyVal → String) (s : Bytes) :
    (∃ t, fromString text s = .ok t) ↔
      (¬ IsList s ∧ (payload s).length = 9) ∨ NineClaimed s := by
  by_cases hlist : IsList s
  · obtain ⟨lst, hitems, hreads⟩ := unpackItems_total (payload s)
    obtain ⟨v, hunpack, hv⟩ := unpack_list hlist hitems
    have hvs : elements v = .ok lst := by
      rcases hv with rfl | rfl
      · rfl
      · rfl
    rw [fromString_elements hunpack hvs, NineClaimed]
    simp only [hlist, not_true_eq_false, false_and, true_and, false_or]
    exact (nineFields_congr (hreads.imp fun piece v h => getInt_returns_iff h)).symm
  · simp only [NineClaimed, hlist, not_false_eq_true, true_and, false_and, or_false]
    by_cases hne : s = []
    · subst hne
      simp [fromString, payload, bind, Except.bind]
    · obtain ⟨v, hunpack, hatom, hbytes⟩ := unpack_string hne hlist
      rcases hbytes with rfl | ⟨hempty, hnot⟩
      · rw [fromString_elements hunpack rfl, nineFields_bytes]
      · have hraises : elements v = .error .typeError := by
          cases hatom with
          | none => rfl
          | int n => rfl
          | bytes b => exact absurd rfl (hnot b)
        simp [fromString, hunpack, hraises, hempty, bind, Except.bind]

-- ---------------------------------------------------------------------------
-- What is malformed
-- ---------------------------------------------------------------------------

theorem strict_iff (s : Bytes) : Strict s ↔ Whole s ∧ IsList s ∧
    (pieces (payload s)).length = 9 ∧ ∀ piece ∈ pieces (payload s), Whole piece ∧ ¬ IsList piece := by
  rw [← strings_iff_pieces]
  unfold Strict
  simp only [listItem_iff]
  constructor
  · rintro ⟨items, hlength, hstrings, hwhole, hlist, hpayload⟩
    exact ⟨hwhole, hlist, items, hlength, hstrings, hpayload.symm⟩
  · rintro ⟨hwhole, hlist, items, hlength, hstrings, hpayload⟩
    exact ⟨items, hlength, hstrings, hwhole, hlist, hpayload.symm⟩

/-- A list of nine byte strings has the fields `from_string` looks for. -/
theorem nineClaimed_of_strict (h : Strict s) : NineClaimed s := by
  obtain ⟨-, hlist, hlength, hpieces⟩ := (strict_iff s).mp h
  exact ⟨hlist, nineFields_of_forall hlength fun piece hmem => (hpieces piece hmem).2⟩

/-- And `from_string` reads it. -/
theorem fromString_of_strict (h : Strict s) : ∃ t, fromString text s = .ok t :=
  (fromString_returns_iff text s).mpr (.inr (nineClaimed_of_strict h))

theorem not_strict_of_malformed (h : Malformed s) : ¬ Strict s := by
  rw [strict_iff]
  rintro ⟨hwhole, hlist, hlength, hpieces⟩
  cases h with
  | string h hnine => exact h hlist
  | trailing h hlt => exact Nat.ne_of_lt hlt hwhole.2
  | truncated h hlt => exact Nat.ne_of_gt hlt hwhole.2
  | overlong h piece hmem hlt => exact Nat.ne_of_gt hlt (hpieces piece hmem).1.2
  | nested h piece hmem hpiece => exact (hpieces piece hmem).2 hpiece

theorem malformed_of_not_strict (h : NineClaimed s) (hstrict : ¬ Strict s) : Malformed s := by
  by_contra hmal
  have hne : s ≠ [] := by
    rintro rfl
    exact h.1
  have hwhole : Whole s := by
    refine ⟨hne, ?_⟩
    rcases Nat.lt_trichotomy (claimed s) s.length with hlt | heq | hlt
    · exact absurd (.trailing h hlt) hmal
    · exact heq
    · exact absurd (.truncated h hlt) hmal
  refine hstrict ((strict_iff s).mpr ⟨hwhole, h.1, h.2.length_eq, ?_⟩)
  intro piece hmem
  obtain ⟨hpiece, hle⟩ := claimed_of_mem_pieces hmem
  refine ⟨⟨hpiece, ?_⟩, fun hlist => hmal (.nested h piece hmem hlist)⟩
  by_contra hclaimed
  exact hmal (.overlong h piece hmem (by omega))

/-- **Strict parsing.** Whatever is read as a transaction is one list of nine byte strings,
unless it is `Malformed`. -/
theorem fromString_strict_iff (text : PyVal → String) (s : Bytes) :
    ((∃ t, fromString text s = .ok t) → Strict s) ↔ ¬ Malformed s := by
  rw [fromString_returns_iff]
  constructor
  · intro h hmal
    refine not_strict_of_malformed hmal (h ?_)
    cases hmal with
    | string hstring hnine => exact .inl ⟨hstring, hnine⟩
    | trailing hclaimed => exact .inr hclaimed
    | truncated hclaimed => exact .inr hclaimed
    | overlong hclaimed => exact .inr hclaimed
    | nested hclaimed => exact .inr hclaimed
  · rintro hmal (⟨hstring, hnine⟩ | hclaimed)
    · exact absurd (.string hstring hnine) hmal
    · by_contra hstrict
      exact hmal (malformed_of_not_strict hclaimed hstrict)

/-- Nine empty fields, and a byte behind the list. -/
def emptyFieldsAndByte : Bytes :=
  [0xC9, 0x80, 0x80, 0x80, 0x80, 0x80, 0x80, 0x80, 0x80, 0x80, 0x19]

theorem fromString_emptyFieldsAndByte :
    (∃ t, fromString (fun _ => "") emptyFieldsAndByte = .ok t) ∧ ¬ Strict emptyFieldsAndByte := by
  refine ⟨⟨_, rfl⟩, fun h => ?_⟩
  have hwhole : Whole emptyFieldsAndByte := ((strict_iff _).mp h).1
  exact absurd hwhole.2 (by decide)

end NeonTests.Transaction
