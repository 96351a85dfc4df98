import NeonTests.Lib.RlpFrame
import NeonTests.Rlp.Definitions

/-!
# RLP codec — decoding whatever comes

`unpack` on input that nobody has checked. It believes every prefix and slices at it, so
it fails on no input but the empty one: a payload that ends early is read as far as it
goes, and what is left over is handed back.

* `unpack_string`, `unpack_list` — the item in front, in terms of what it claims;
* `unpackItems_total` — a payload is always decoded, piece by piece.
-/

namespace NeonTests.Rlp

open Endian Fallible Python RlpFrame

/-- What a byte string is decoded to. -/
inductive IsAtom : PyVal → Prop
  | none : IsAtom .none
  | int (n : Nat) : IsAtom (.int n)
  | bytes (b : Bytes) : IsAtom (.bytes b)

/-- What a list is decoded to. -/
inductive IsSequence : PyVal → Prop
  | list (xs : List PyVal) : IsSequence (.list xs)
  | tuple (xs : List PyVal) : IsSequence (.tuple xs)

/-- A piece is decoded to the kind of value its first byte announces. -/
def Reads (piece : Bytes) (v : PyVal) : Prop :=
  if IsList piece then IsSequence v else IsAtom v

private theorem drop_claimed (c : UInt8) (tail : Bytes) :
    (c :: tail).drop (claimed (c :: tail)) =
      (tail.drop (lengthBytes c.toNat)).drop (payloadLength c.toNat tail) := by
  rw [claimed, Nat.add_assoc, Nat.add_comm 1, List.drop_succ_cons, List.drop_drop]

variable {s : Bytes} {lst : List PyVal}

/-- A byte string in front: a number, `None` or what there is of the payload. -/
theorem unpack_string (hne : s ≠ []) (hstring : ¬ IsList s) :
    ∃ v, unpack s = .ok (v, s.drop (claimed s)) ∧ IsAtom v ∧
      (v = .bytes (payload s) ∨ (payload s = [] ∧ ∀ b, v ≠ .bytes b)) := by
  cases s with
  | nil => exact absurd rfl hne
  | cons c tail =>
    simp only [IsList, not_le] at hstring
    rw [drop_claimed, payload, unpack_cons]
    simp only
    rcases prefix_cases c.toNat with h1 | ⟨h1, h2⟩ | ⟨h1, h2⟩ | ⟨h1, h2⟩ | h1
    · rw [lengthBytes_string (by omega), payloadLength_byte _ h1, if_pos h1]
      exact ⟨_, rfl, .int _, .inr ⟨rfl, fun b => PyVal.noConfusion⟩⟩
    · rw [lengthBytes_string h2, payloadLength_string _ h1 h2, if_neg (by omega)]
      by_cases hempty : c.toNat = 0x80
      · rw [if_pos hempty, hempty]
        exact ⟨_, rfl, .none, .inr ⟨rfl, fun b => PyVal.noConfusion⟩⟩
      · rw [if_neg hempty, if_pos h2]
        exact ⟨_, rfl, .bytes _, .inl rfl⟩
    · rw [lengthBytes_longString h1 h2, payloadLength_longString _ h1 h2, if_neg (by omega),
        if_neg (by omega), if_neg (by omega), if_pos h2]
      exact ⟨_, rfl, .bytes _, .inl rfl⟩
    · omega
    · omega

/-- A list in front, once its payload is decoded. -/
theorem unpack_list (hlist : IsList s) (hitems : unpackItems (payload s) = .ok lst) :
    ∃ v, unpack s = .ok (v, s.drop (claimed s)) ∧ (v = .list lst ∨ v = .tuple lst) := by
  cases s with
  | nil => exact absurd hlist id
  | cons c tail =>
    simp only [IsList] at hlist
    rw [payload] at hitems
    rw [drop_claimed, unpack_cons]
    simp only
    rw [if_neg (by omega), if_neg (by omega), if_neg (by omega), if_neg (by omega)]
    rcases Nat.lt_or_ge 0xF7 c.toNat with h1 | h1
    · rw [lengthBytes_longList h1, payloadLength_longList _ h1] at hitems ⊢
      rw [if_neg (by omega), if_neg (by omega), hitems]
      exact ⟨_, rfl, .inl rfl⟩
    · rw [lengthBytes_list (by omega) h1, payloadLength_list _ (by omega) h1] at hitems ⊢
      by_cases hempty : c.toNat = 0xC0
      · rw [hempty] at hitems ⊢
        obtain rfl : lst = [] := by simpa using hitems.symm
        exact ⟨_, rfl, .inr rfl⟩
      · rw [List.drop_zero] at hitems
        rw [if_neg hempty, if_pos h1, hitems]
        exact ⟨_, rfl, .inl rfl⟩

theorem payload_length_lt (hne : s ≠ []) : (payload s).length < s.length := by
  cases s with
  | nil => exact absurd rfl hne
  | cons c tail =>
    rw [payload, List.length_take, List.length_drop, List.length_cons]
    omega

/-- **Any payload is decoded**, to one value for each of its pieces. The item loop never
sees an empty slice, and an empty slice is all `unpack` fails on. -/
theorem unpackItems_total (sub : Bytes) :
    ∃ lst, unpackItems sub = .ok lst ∧ List.Forall₂ Reads (pieces sub) lst := by
  -- by the length: the payload of a nested list is shorter, and so is what is left behind
  induction hn : sub.length using Nat.strong_induction_on generalizing sub with
  | _ n ih =>
    by_cases hne : sub = []
    · subst hne
      exact ⟨[], rfl, by rw [pieces_nil]; exact .nil⟩
    · have hpos := claimed_pos hne
      have hlength := List.length_pos_iff.mpr hne
      obtain ⟨rest, hrest, hreads⟩ := ih (sub.drop (claimed sub)).length
        (by rw [List.length_drop]; omega) (sub.drop (claimed sub)) rfl
      have hfront : ∃ v, unpack sub = .ok (v, sub.drop (claimed sub)) ∧
          Reads (sub.take (claimed sub)) v := by
        unfold Reads
        simp only [isList_take hpos]
        by_cases hlist : IsList sub
        · obtain ⟨lst, hitems, -⟩ := ih (payload sub).length
            (by rw [← hn]; exact payload_length_lt hne) (payload sub) rfl
          obtain ⟨v, hv, hseq⟩ := unpack_list hlist hitems
          refine ⟨v, hv, ?_⟩
          rw [if_pos hlist]
          rcases hseq with rfl | rfl
          · exact .list _
          · exact .tuple _
        · obtain ⟨v, hv, hatom, -⟩ := unpack_string hne hlist
          exact ⟨v, hv, by rwa [if_neg hlist]⟩
      obtain ⟨v, hv, hread⟩ := hfront
      refine ⟨v :: rest, ?_, ?_⟩
      · obtain ⟨c, tail, rfl⟩ := List.exists_cons_of_ne_nil hne
        rw [unpackItems_cons, hv, ok_bind]
        simp only [hrest, ok_bind]
        rfl
      · rw [pieces_of_ne_nil hne]
        exact .cons hread hreads

end NeonTests.Rlp
