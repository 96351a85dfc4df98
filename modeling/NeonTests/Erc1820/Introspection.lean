import NeonTests.Erc1820.Definitions

/-!
# The ERC-1820 registry — asking a contract

`noThrowCall` stores the answer over the question and loads a word from there, so where an
answer is shorter than a word, the rest of the word is the question's.

* `noThrowCall_eq` — what is asked, and what the word is;
* `implementsERC165InterfaceNoCache_iff` — which answers make a contract count: a first answer
  of less than eight bytes passes for a yes, a second one of eight zeros for a no, and the third
  has to be a whole word.
-/

namespace NeonTests.Erc1820

open Endian EvmMemory Solidity

/-- The calldata of `supportsInterface(id)`. -/
def question (id : Bytes4) : Bytes :=
  beBytes 4 erc165Id.toNat ++ (beBytes 4 id.toNat ++ List.replicate 28 0)

/-- The word that is loaded where the answer is stored over the question. -/
def overlaid (data : Bytes) (id : Bytes4) : Bytes :=
  (data.take 32 ++ (question id).drop (data.take 32).length).take 32

variable {m : Memory} {p : Nat} {id : Bytes4} {data bs : Bytes}

-- ---------------------------------------------------------------------------
-- The question
-- ---------------------------------------------------------------------------

@[simp] theorem length_question (id : Bytes4) : (question id).length = 36 := by simp [question]

theorem wordBytes_toBytes32 (id : Bytes4) :
    wordBytes id.toBytes32 = beBytes 4 id.toNat ++ List.replicate 28 0 := by
  have hnat : id.toBytes32.toNat = 256 ^ 28 * id.toNat := by
    rw [Bytes4.toNat_toBytes32]
    norm_num
  rw [wordBytes, hnat]
  exact beBytes_pow_mul 28 4 id.toNat

/-- The interface id is stored over what is behind the selector. -/
def asking (m : Memory) (p : Nat) (id : Bytes4) : Memory :=
  write (write m p (wordBytes erc165Id.toBytes32)) (p + 4) (wordBytes id.toBytes32)

theorem holds_question (m : Memory) (p : Nat) (id : Bytes4) :
    Holds (asking m p id) p (question id) := by
  have hword := holds_write m p (wordBytes erc165Id.toBytes32)
  rw [wordBytes_toBytes32] at hword
  rw [asking, wordBytes_toBytes32, question, wordBytes_toBytes32]
  exact (holds_append.mp hword).1.write_behind (by rw [length_beBytes])

theorem Holds.asked (h : Holds m 0x40 bs) (hlen : bs.length = 32) (id : Bytes4) (data : Bytes) :
    Holds (write (asking m 0x80 id) 0x80 data) 0x40 bs := by
  refine EvmMemory.Holds.write_of_disjoint ?_ (Or.inl (by omega))
  refine EvmMemory.Holds.write_of_disjoint ?_ (Or.inl (by omega))
  exact EvmMemory.Holds.write_of_disjoint h (Or.inl (by omega))

-- ---------------------------------------------------------------------------
-- The answer over the question
-- ---------------------------------------------------------------------------

theorem read_overwritten (h : Holds m p bs) {n : Nat} (hdata : data.length ≤ n)
    (hn : n ≤ bs.length) : read (write m p data) p n = (data ++ bs.drop data.length).take n := by
  rw [← List.take_append_drop data.length bs] at h
  obtain ⟨-, hbehind⟩ := holds_append.mp h
  rw [List.length_take_of_le (by omega)] at hbehind
  have hall : Holds (write m p data) p (data ++ bs.drop data.length) :=
    holds_append.mpr ⟨holds_write m p data, hbehind.write_of_disjoint (Or.inr le_rfl)⟩
  rw [← List.take_append_drop n (data ++ bs.drop data.length)] at hall
  refine (holds_append.mp hall).1.read ?_
  rw [List.length_take_of_le]
  rw [List.length_append, List.length_drop]
  omega

theorem noThrowCall_eq (staticcall : Address → Bytes → Answer) (contract : Address)
    (id : Bytes4) (h : Holds m 0x40 (wordBytes 0x80)) :
    let answer := staticcall contract (question id)
    noThrowCall staticcall m contract id =
      (write (asking m 0x80 id) 0x80 (answer.data.take 32), if answer.success then 1 else 0,
        wordOf (overlaid answer.data id)) := by
  intro answer
  have hpointer : wordOf (read m 0x40 32) = 0x80 := by
    rw [h.read (length_wordBytes _).symm, wordOf_wordBytes]
  have hquestion := holds_question m 0x80 id
  have hasked : read (asking m 0x80 id) 0x80 0x24 = question id :=
    hquestion.read (length_question id).symm
  have hword : read (write (asking m 0x80 id) 0x80 (answer.data.take 32)) 0x80 32 =
      overlaid answer.data id :=
    read_overwritten hquestion (List.length_take_le ..) (by rw [length_question]; omega)
  unfold noThrowCall
  simp only [hpointer]
  show (write (asking m 0x80 id) 0x80
      ((staticcall contract (read (asking m 0x80 id) 0x80 0x24)).data.take 32),
    if (staticcall contract (read (asking m 0x80 id) 0x80 0x24)).success then 1 else 0,
    wordOf (read (write (asking m 0x80 id) 0x80
      ((staticcall contract (read (asking m 0x80 id) 0x80 0x24)).data.take 32)) 0x80 32)) = _
  rw [hasked, hword]

-- ---------------------------------------------------------------------------
-- What the word says
-- ---------------------------------------------------------------------------

theorem length_overlaid (data : Bytes) (id : Bytes4) : (overlaid data id).length = 32 := by
  rw [overlaid, List.length_take_of_le]
  rw [List.length_append, List.length_drop, length_question, List.length_take]
  omega

theorem wordOf_overlaid {w : Uint256} :
    wordOf (overlaid data id) = w ↔ overlaid data id = wordBytes w := by
  constructor
  · rintro rfl
    exact (wordBytes_wordOf (length_overlaid data id)).symm
  · intro h
    rw [h, wordOf_wordBytes]

/-- Byte by byte: the answer's as far as it goes, the question's behind. -/
theorem getElem?_overlaid (data : Bytes) (id : Bytes4) {i : Nat} (hi : i < 32) :
    (overlaid data id)[i]? = if i < data.length then data[i]? else (question id)[i]? := by
  rw [overlaid, List.getElem?_take_of_lt hi, List.getElem?_append, List.length_take]
  split
  · next h => rw [if_pos (by omega), List.getElem?_take_of_lt hi]
  · next h => rw [if_neg (by omega), List.getElem?_drop, Nat.add_sub_cancel' (by omega)]

theorem getElem?_question_behind {i : Nat} (hi : 8 ≤ i) (hlt : i < 36) :
    (question id)[i]? = some 0 := by
  rw [question, List.getElem?_append_right (by simp; omega),
    List.getElem?_append_right (by simp; omega), List.getElem?_replicate, if_pos (by simp; omega)]

theorem overlaid_eq_zero (hid : (question id)[7]? ≠ some 0) :
    overlaid data id = wordBytes 0 ↔ 8 ≤ data.length ∧ ∀ b ∈ data.take 32, b = 0 := by
  have hzero : wordBytes 0 = List.replicate 32 0 := by decide
  rw [hzero]
  constructor
  · intro h
    have hbyte : ∀ i < 32, (overlaid data id)[i]? = some 0 := by
      intro i hi
      rw [h, List.getElem?_replicate, if_pos hi]
    refine ⟨?_, ?_⟩
    · by_contra hlen
      have := hbyte 7 (by omega)
      rw [getElem?_overlaid data id (by omega), if_neg (by omega)] at this
      exact hid this
    · intro b hb
      obtain ⟨i, hi⟩ := List.mem_iff_getElem?.mp hb
      obtain ⟨hlt, -⟩ := List.getElem?_eq_some_iff.mp hi
      rw [List.length_take] at hlt
      have := hbyte i (by omega)
      rw [getElem?_overlaid data id (by omega), if_pos (by omega)] at this
      rw [List.getElem?_take_of_lt (by omega), this] at hi
      exact (Option.some.inj hi).symm
  · rintro ⟨hlen, hall⟩
    refine List.eq_replicate_iff.mpr ⟨length_overlaid data id, fun b hb => ?_⟩
    obtain ⟨i, hi⟩ := List.mem_iff_getElem?.mp hb
    obtain ⟨hlt, -⟩ := List.getElem?_eq_some_iff.mp hi
    rw [length_overlaid] at hlt
    rw [getElem?_overlaid data id hlt] at hi
    split at hi
    · refine hall b (List.mem_iff_getElem?.mpr ⟨i, ?_⟩)
      rwa [List.getElem?_take_of_lt hlt]
    · rw [getElem?_question_behind (by omega) (by omega)] at hi
      exact (Option.some.inj hi).symm

theorem overlaid_eq_one : overlaid data id = wordBytes 1 ↔ wordBytes 1 <+: data := by
  constructor
  · intro h
    have hlen : 32 ≤ data.length := by
      by_contra hlen
      have hlast := getElem?_overlaid data id (by omega : 31 < 32)
      rw [h, if_neg (by omega), getElem?_question_behind (by omega) (by omega)] at hlast
      exact absurd hlast (by decide)
    rw [overlaid, List.take_append_of_le_length (by rw [List.length_take]; omega),
      List.take_take, Nat.min_self] at h
    rw [← h]
    exact List.take_prefix 32 data
  · rintro ⟨rest, rfl⟩
    have hfront : (wordBytes 1 ++ rest).take 32 = wordBytes 1 :=
      List.take_left' (length_wordBytes 1)
    rw [overlaid, hfront]
    exact List.take_left' (length_wordBytes 1)

-- ---------------------------------------------------------------------------
-- Which contracts count
-- ---------------------------------------------------------------------------

/-- Passes for a contract with ERC-165. -/
def Answer.Introspects (answer : Answer) : Prop :=
  answer.success ∧ (answer.data.length < 8 ∨ ∃ b ∈ answer.data.take 32, b ≠ 0)

/-- Denies the invalid interface. -/
def Answer.Denies (answer : Answer) : Prop :=
  answer.success ∧ 8 ≤ answer.data.length ∧ ∀ b ∈ answer.data.take 32, b = 0

def Answer.Confirms (answer : Answer) : Prop := answer.success ∧ wordBytes 1 <+: answer.data

/-- **ERC-165 detection.** -/
theorem implementsERC165InterfaceNoCache_iff (outside : Outside) (contract : Address)
    (id : Bytes4) :
    implementsERC165InterfaceNoCache outside contract id = true ↔
      (outside.staticcall 0 contract (question erc165Id)).Introspects ∧
      (outside.staticcall 1 contract (question invalidId)).Denies ∧
      (outside.staticcall 2 contract (question id)).Confirms := by
  have hpointer : Holds initialMemory 0x40 (wordBytes 0x80) := holds_write ..
  have hasked : ∀ (id : Bytes4) (m : Memory) (data : Bytes), Holds m 0x40 (wordBytes 0x80) →
      Holds (write (asking m 0x80 id) 0x80 data) 0x40 (wordBytes 0x80) :=
    fun id m data h => Holds.asked h (length_wordBytes _) id data
  have hyes : ∀ b : Bool, (if b then (1 : Uint256) else 0) = 0 ↔ ¬b := by decide
  have hone : ∀ b : Bool, (if b then (1 : Uint256) else 0) = 1 ↔ b := by decide
  have hselector : (question erc165Id)[7]? ≠ some 0 := by decide
  have hinvalid : (question invalidId)[7]? ≠ some 0 := by decide
  unfold implementsERC165InterfaceNoCache
  rw [noThrowCall_eq _ _ _ hpointer]
  simp only [noThrowCall_eq _ _ _ (hasked _ _ _ hpointer),
    noThrowCall_eq _ _ _ (hasked _ _ _ (hasked _ _ _ hpointer)), ne_eq, wordOf_overlaid,
    overlaid_eq_zero hselector, overlaid_eq_zero hinvalid, overlaid_eq_one, hyes, hone]
  unfold Answer.Introspects Answer.Denies Answer.Confirms
  grind

end NeonTests.Erc1820
