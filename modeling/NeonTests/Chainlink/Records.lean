import NeonTests.Chainlink.Account
import NeonTests.Pyth.Parse

/-!
# Chainlink feed reader — header and rounds, as they are stored

`extractHeader` and `extractRound` on what the store program writes.

* `reverses_unsigned32`, `reverses_signed128` — the readers reverse the bytes of their word;
* `extractRound_serialize` — every round comes back;
* `extractHeader_serialize_iff` — every header whose description leaves a byte of its field
  for the NUL that `bytesToString` looks for, and no other.
-/

namespace NeonTests.Chainlink

open Endian Fallible Solidity BytesLib ByteSwap
open Pyth (BytesN wordBytes length_wordBytes reversed_wordBytes)

-- ---------------------------------------------------------------------------
-- The little-endian readers
-- ---------------------------------------------------------------------------

/-- The function is the one of `PythOracle.sol`. -/
theorem reverses_unsigned32 : ReversesBytes readLittleEndianUnsigned32 := Pyth.reverses_unsigned32

theorem moves_swapWithin64 :
    Moves (fun i => partner 8 (partner 16 (partner 32 i))) swapWithin64 := by
  have h8 : Moves (partner 8) fun x : Uint128 =>
      ((x <<< 8) &&& 0xFF00FF00FF00FF00FF00FF00FF00FF00#128) |||
        ((x >>> 8) &&& 0x00FF00FF00FF00FF00FF00FF00FF00FF#128) :=
    moves_shift_mask (by unfold SelectsOdd; decide) (by unfold SelectsEven; decide)
  have h16 : Moves (partner 16) fun x : Uint128 =>
      ((x <<< 16) &&& 0xFFFF0000FFFF0000FFFF0000FFFF0000#128) |||
        ((x >>> 16) &&& 0x0000FFFF0000FFFF0000FFFF0000FFFF#128) :=
    moves_shift_mask (by unfold SelectsOdd; decide) (by unfold SelectsEven; decide)
  have h32 : Moves (partner 32) fun x : Uint128 =>
      ((x <<< 32) &&& 0xFFFFFFFF00000000FFFFFFFF00000000#128) |||
        ((x >>> 32) &&& 0x00000000FFFFFFFF00000000FFFFFFFF#128) :=
    moves_shift_mask (by unfold SelectsOdd; decide) (by unfold SelectsEven; decide)
  exact h32.comp (h16.comp h8 (by decide)) (by decide)

/-- The word `readLittleEndianSigned128` converts. -/
theorem reverses_signed128 : ReversesBytes fun x : Uint128 =>
    (swapWithin64 x <<< 64) ||| ((swapWithin64 x >>> 64) &&& 0xFFFFFFFFFFFFFFFF#128) :=
  ((moves_halves_masked (s := 64) rfl (by unfold SelectsEven; decide)).comp moves_swapWithin64
    (by decide)).congr (by decide)

theorem unsigned32_wordBytes (x : Uint32) :
    readLittleEndianUnsigned32 (BitVec.ofNat 32 (beNat (wordBytes 4 x))) = x :=
  reversed_wordBytes reverses_unsigned32 rfl x

/-- One byte has no order. -/
theorem uint8_wordBytes (x : Uint8) : BitVec.ofNat 8 (beNat (wordBytes 1 x)) = x := by
  have hreverse : beNat (wordBytes 1 x) = leNat (wordBytes 1 x) := rfl
  rw [hreverse, wordBytes, leNat_leBytes (by simpa using x.isLt)]
  exact BitVec.ofNat_toNat .. |>.trans (BitVec.setWidth_eq x)

theorem signed128_wordBytes (x : Sint128) :
    readLittleEndianSigned128 (BitVec.ofNat 128 (beNat (wordBytes 16 x.toBits))) = x := by
  have hreversed := reversed_wordBytes reverses_signed128 (n := 16) rfl x.toBits
  rw [readLittleEndianSigned128]
  simp only [hreversed, SInt.ofBits_toBits]

-- ---------------------------------------------------------------------------
-- Rounds
-- ---------------------------------------------------------------------------

/-- The two reads of `extractRound`. -/
theorem extractRound_transmission (roundId : Uint32) (t : Transmission) :
    extractRound roundId t.serialize = .ok (t.round roundId) := by
  have h8 : t.serialize.drop 8 = _ := List.drop_left' t.slot.2
  have h12 : t.serialize.drop 12 = _ := drop_next h8 (length_wordBytes _) rfl
  have h16 : t.serialize.drop 16 = _ := drop_next h12 t.padding0.2 rfl
  unfold extractRound
  simp only [transmissionTimestampOffset, transmissionAnswerOffset, toUint32, toUint128, ok_bind,
    toUint_of_drop h8 (length_wordBytes _) (by decide),
    toUint_of_drop h16 (length_wordBytes _) (by decide), unsigned32_wordBytes, signed128_wordBytes]
  rfl

/-- **Rounds come back**, because the two readers turn the big-endian reading of any word into
the little-endian one. -/
theorem extractRound_serialize :
    (∀ (roundId : Uint32) (t : Transmission),
      extractRound roundId t.serialize = .ok (t.round roundId)) ∧
    (∀ bs : BytesN 4, readLittleEndianUnsigned32 (BitVec.ofNat 32 (beNat bs.toList)) =
      BitVec.ofNat 32 (leNat bs.toList)) ∧
    (∀ bs : BytesN 16, readLittleEndianSigned128 (BitVec.ofNat 128 (beNat bs.toList)) =
      SInt.ofBits (BitVec.ofNat 128 (leNat bs.toList))) := by
  refine ⟨extractRound_transmission, ?_, ?_⟩
  · intro bs
    exact reverses_unsigned32.ofNat_beNat (by rw [bs.toList_length])
  · intro bs
    have hwidth : 128 = 8 * bs.toList.length := by rw [bs.toList_length]
    have hreversed := reverses_signed128.ofNat_beNat hwidth
    rw [readLittleEndianSigned128]
    simp only [hreversed]

-- ---------------------------------------------------------------------------
-- Headers
-- ---------------------------------------------------------------------------

/-- The scan stops at the first NUL. -/
theorem terminator_append {text : Bytes} (htext : ∀ b ∈ text, b ≠ 0) (rest : Bytes)
    {n : Uint8} (hlt : n.toNat + text.length < 2 ^ 8) :
    ∃ stop : Uint8, terminator n (text ++ 0 :: rest) = .ok stop ∧
      stop.toNat = n.toNat + text.length := by
  induction text generalizing n with
  | nil => exact ⟨n, rfl, rfl⟩
  | cons b text ih =>
    rw [List.length_cons] at hlt
    obtain ⟨next, hnext⟩ := exists_toNat (n := n.toNat + 1) (w := 8) (by omega)
    have hadd : checkedAdd n 1 = .ok next := checkedAdd_eq_ok.mpr hnext
    obtain ⟨stop, hstop, heq⟩ := ih (fun c hc => htext c (List.mem_cons_of_mem _ hc))
      (n := next) (by omega)
    refine ⟨stop, ?_, by rw [heq, hnext, List.length_cons]; omega⟩
    rw [List.cons_append, terminator, if_neg (htext b List.mem_cons_self), hadd, ok_bind, hstop]

/-- Without a NUL it runs past the end. -/
theorem terminator_of_text {text : Bytes} (htext : ∀ b ∈ text, b ≠ 0) {n : Uint8}
    (hlt : n.toNat + text.length < 2 ^ 8) :
    terminator n text = .error .outOfBounds := by
  induction text generalizing n with
  | nil => rfl
  | cons b text ih =>
    rw [List.length_cons] at hlt
    obtain ⟨next, hnext⟩ := exists_toNat (n := n.toNat + 1) (w := 8) (by omega)
    have hadd : checkedAdd n 1 = .ok next := checkedAdd_eq_ok.mpr hnext
    rw [terminator, if_neg (htext b List.mem_cons_self), hadd, ok_bind]
    exact ih (fun c hc => htext c (List.mem_cons_of_mem _ hc)) (by omega)

theorem length_padded {description : Bytes} (h : description.length ≤ 32) :
    (padded description).length = 32 := by
  rw [padded, List.length_append, List.length_replicate, headerDescriptionLength]
  omega

theorem bytesToString_padded {description : Bytes} (htext : ∀ b ∈ description, b ≠ 0)
    (h : description.length ≤ 31) : bytesToString (padded description) = .ok description := by
  obtain ⟨n, hn⟩ : ∃ n, headerDescriptionLength - description.length = n + 1 :=
    ⟨31 - description.length, by rw [headerDescriptionLength]; omega⟩
  obtain ⟨stop, hstop, heq⟩ := terminator_append htext (List.replicate n 0) (n := 0)
    (by rw [BitVec.ofNat_eq_ofNat, BitVec.toNat_zero]; omega)
  rw [bytesToString, padded, hn, List.replicate_succ, hstop, ok_bind, heq]
  simp [pure, Except.pure]

theorem bytesToString_full {description : Bytes} (htext : ∀ b ∈ description, b ≠ 0)
    (h : description.length = 32) :
    bytesToString (padded description) = .error .outOfBounds := by
  rw [bytesToString, padded, h, headerDescriptionLength, List.replicate_zero, List.append_nil,
    terminator_of_text htext (by rw [BitVec.ofNat_eq_ofNat, BitVec.toNat_zero]; omega)]
  rfl

/-- The reads of `extractHeader`, the description's field still to be converted. -/
theorem extractHeader_transmissions (t : Transmissions) :
    extractHeader t.serialize = (bytesToString (padded t.description)).map
      fun description => { t.header with description := description } := by
  have hfield := length_padded t.description_le
  have h0 : t.serialize.drop 0 = _ := rfl
  have h1 : t.serialize.drop 1 = _ := drop_next h0 (length_wordBytes _) rfl
  have h98 : t.serialize.drop 98 = _ := drop_next h1 t.roles.2 rfl
  have h130 : t.serialize.drop 130 = _ := drop_next h98 hfield rfl
  have h131 : t.serialize.drop 131 = _ := drop_next h130 (length_wordBytes _) rfl
  have h135 : t.serialize.drop 135 = _ := drop_next h131 t.flaggingThreshold.2 rfl
  have h139 : t.serialize.drop 139 = _ := drop_next h135 (length_wordBytes _) rfl
  have h140 : t.serialize.drop 140 = _ := drop_next h139 (length_wordBytes _) rfl
  have h144 : t.serialize.drop 144 = _ := drop_next h140 (length_wordBytes _) rfl
  have h148 : t.serialize.drop 148 = _ := drop_next h144 (length_wordBytes _) rfl
  unfold extractHeader
  simp only [headerDecimalsOffset, headerDescriptionOffset, headerDescriptionLength,
    headerVersionOffset, headerLatestRoundIdOffset, headerLiveLengthOffset,
    headerLiveCursorOffset, headerHistoricalCursorOffset, headerGranularityOffset, toUint8,
    toUint32, ok_bind,
    toUint_of_drop h0 (length_wordBytes _) (by decide),
    slice_of_drop h98 hfield (by decide) (by decide),
    toUint_of_drop h130 (length_wordBytes _) (by decide),
    toUint_of_drop h135 (length_wordBytes _) (by decide),
    toUint_of_drop h139 (length_wordBytes _) (by decide),
    toUint_of_drop h140 (length_wordBytes _) (by decide),
    toUint_of_drop h144 (length_wordBytes _) (by decide),
    toUint_of_drop h148 (length_wordBytes _) (by decide), unsigned32_wordBytes, uint8_wordBytes]
  cases bytesToString (padded t.description) with
  | error e => rfl
  | ok description => rfl

/-- **Headers come back** exactly if their description is not as long as its field. -/
theorem extractHeader_serialize_iff (t : Transmissions) :
    extractHeader t.serialize = .ok t.header ↔ t.description.length ≤ 31 := by
  rw [extractHeader_transmissions]
  constructor
  · intro h
    by_contra hlong
    have hfull : t.description.length = 32 := by
      have := t.description_le
      omega
    rw [bytesToString_full t.description_text hfull] at h
    cases h
  · intro h
    rw [bytesToString_padded t.description_text h]
    rfl

/-- A header whose description takes its whole field: 32 times the letter A. -/
def fullDescription : Transmissions where
  version := 2
  roles := List.Vector.replicate 97 0
  description := List.replicate 32 0x41
  description_le := by decide
  description_text := by simp
  decimals := 8
  flaggingThreshold := List.Vector.replicate 4 0
  latestRoundId := 5
  granularity := 30
  liveLength := 1
  liveCursor := 0
  historicalCursor := 0
  rest := List.replicate 40 0

theorem extractHeader_fullDescription :
    extractHeader fullDescription.serialize = .error .outOfBounds ∧
      extractHeader fullDescription.serialize ≠ .ok fullDescription.header := by
  have hfail : extractHeader fullDescription.serialize = .error .outOfBounds := by
    rw [extractHeader_transmissions, bytesToString_full fullDescription.description_text rfl]
    rfl
  refine ⟨hfail, ?_⟩
  rw [hfail]
  simp

end NeonTests.Chainlink
