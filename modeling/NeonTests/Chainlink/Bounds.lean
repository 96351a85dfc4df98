import NeonTests.Chainlink.Account
import NeonTests.Chainlink.Locate

/-!
# Chainlink feed reader — no lookup runs out of bounds

`locateRound` and the offset computed from it, over feeds that fit into an account.

* `answerLive_in_bounds`, `answerHistorical_in_bounds` — the two branches, each under the
  range test that leads to it;
* `locateRound_total` — a lookup answers within bounds, or says that there is no data.
-/

namespace NeonTests.Chainlink

open Fallible Solidity RingBuffer

/-- The largest account there is: 10 MiB. -/
def maxAccountSize : Nat := 10 * 1024 * 1024

/-- A feed with cursors inside its rings, and an account for both of them. -/
structure Feed.WellFormed (f : Feed) : Prop where
  granularity_pos : 1 ≤ f.granularity.toNat
  live_cursor : f.liveCursor.toNat < f.liveLength.toNat
  historical_cursor : f.historicalCursor.toNat < f.historicalLength.toNat
  size : 8 + 192 + 48 * (f.liveLength.toNat + f.historicalLength.toNat) ≤ maxAccountSize

/-- An answer whose slot is in the account, for a round at most one archive step back. -/
structure Feed.InBounds (f : Feed) (roundId position correctedRoundId : Uint32) : Prop where
  position_lt : position.toNat < f.liveLength.toNat + f.historicalLength.toNat
  corrected_le : correctedRoundId.toNat ≤ roundId.toNat
  corrected_gt : roundId.toNat - correctedRoundId.toNat < f.granularity.toNat
  exact_of_live : f.Live roundId → correctedRoundId = roundId ∧
    position.toNat < f.liveLength.toNat
  offset : ∃ offset : Uint32, roundOffset position = .ok offset ∧
    offset.toNat = 8 + 192 + 48 * position.toNat

variable {f : Feed} {roundId : Uint32}

/-- The rings of a well-formed feed are short. -/
theorem Feed.WellFormed.lengths (hf : f.WellFormed) :
    f.liveLength.toNat + f.historicalLength.toNat < 2 ^ 18 := by
  have hsize := hf.size
  unfold maxAccountSize at hsize
  omega

theorem Feed.WellFormed.rangesFit (hf : f.WellFormed) : f.RangesFit where
  live_pos := by
    have := hf.live_cursor
    omega
  historical_pos := by
    have := hf.historical_cursor
    omega
  granularity_pos := hf.granularity_pos
  span := by
    have hlengths := hf.lengths
    have hgran := f.granularity.isLt
    calc f.granularity.toNat * (f.historicalLength.toNat - 1)
        ≤ 2 ^ 8 * 2 ^ 18 := Nat.mul_le_mul (by omega) (by omega)
      _ < 2 ^ 32 := by decide

/-- The offset of a slot of the account fits, the `uint8` sum in it included. -/
theorem roundOffset_of_lt {position : Uint32} (h : position.toNat < 2 ^ 18) :
    ∃ offset : Uint32, roundOffset position = .ok offset ∧
      offset.toNat = 8 + 192 + 48 * position.toNat := by
  have hfront : checkedAdd discriminatorSize headerSize = .ok (200 : Uint8) := rfl
  obtain ⟨behind, hbehind⟩ := exists_toNat (n := 48 * position.toNat) (w := 32) (by omega)
  obtain ⟨offset, hoffset⟩ := exists_toNat (n := 200 + 48 * position.toNat) (w := 32) (by omega)
  have hmul : checkedMul (transmissionSize.setWidth 32) position = .ok behind :=
    checkedMul_eq_ok.mpr hbehind
  have hadd : checkedAdd ((200 : Uint8).setWidth 32) behind = .ok offset :=
    checkedAdd_eq_ok.mpr (by rw [hoffset, hbehind]; rfl)
  refine ⟨offset, ?_, hoffset⟩
  rw [roundOffset, hfront, ok_bind, hmul, ok_bind, hadd]

-- ---------------------------------------------------------------------------
-- The two branches
-- ---------------------------------------------------------------------------

/-- The distance from the newest round back to the requested one is at most the length of
the ring, because the request is in its range. -/
theorem answerLive_in_bounds (hf : f.WellFormed) (hlive : f.Live roundId) :
    ∃ position, f.answerLive roundId = .ok (position, roundId) ∧
      position.toNat = slotBefore f.liveCursor.toNat f.liveLength.toNat
        (f.latestRoundId.toNat - roundId.toNat + 1) ∧
      f.latestRoundId.toNat - roundId.toNat + 1 ≤ f.liveLength.toNat ∧
      f.InBounds roundId position roundId := by
  have hcursor := hf.live_cursor
  have hlengths := hf.lengths
  have hgran := hf.granularity_pos
  have hback : f.latestRoundId.toNat - roundId.toNat + 1 ≤ f.liveLength.toNat := by
    have hstart := hlive.1
    unfold Feed.liveStart at hstart
    omega
  obtain ⟨offset, hoffset⟩ :=
    exists_toNat (n := f.latestRoundId.toNat - roundId.toNat + 1) (w := 32) (by omega)
  have hlt : slotBefore f.liveCursor.toNat f.liveLength.toNat
      (f.latestRoundId.toNat - roundId.toNat + 1) < f.liveLength.toNat :=
    slotBefore_lt (by omega) _
  obtain ⟨position, hposition⟩ := exists_toNat (n := slotBefore f.liveCursor.toNat
    f.liveLength.toNat (f.latestRoundId.toNat - roundId.toNat + 1)) (w := 32) (by omega)
  refine ⟨position, ?_, hposition, hback, ?_⟩
  · rw [answerLive_eq_ok hlive.2]
    refine ⟨rfl, offset, hoffset, ?_⟩
    rw [leftShiftRingbufferCursor_eq_ok, hoffset]
    exact ⟨hcursor, hback, by omega, hposition⟩
  · exact {
      position_lt := by omega
      corrected_le := le_rfl
      corrected_gt := by omega
      exact_of_live := fun _ => ⟨rfl, by omega⟩
      offset := roundOffset_of_lt (by omega) }

/-- Rounding down stays in the historical range, whose start is a multiple of the
granularity or zero. -/
theorem answerHistorical_in_bounds (hf : f.WellFormed) (hlive : ¬ f.Live roundId)
    (hhist : f.Historical roundId) {historicalEnd : Uint32}
    (hEnd : historicalEnd.toNat = f.historicalEnd) :
    ∃ position correctedRoundId,
      f.answerHistorical historicalEnd roundId = .ok (position, correctedRoundId) ∧
      f.InBounds roundId position correctedRoundId := by
  have hcursor := hf.historical_cursor
  have hlengths := hf.lengths
  have hgpos := hf.granularity_pos
  have hmod := Nat.mod_lt roundId.toNat hgpos
  have hdivmod := Nat.div_add_mod roundId.toNat f.granularity.toNat
  obtain ⟨hstart, hend⟩ := hhist
  have harchive : f.historicalEnd = f.granularity.toNat * f.archived := rfl
  obtain ⟨g, hg⟩ : ∃ g, g = f.granularity.toNat := ⟨_, rfl⟩
  rw [← hg] at hgpos hmod hdivmod harchive
  obtain ⟨q, hq⟩ : ∃ q, q = roundId.toNat / g := ⟨_, rfl⟩
  rw [← hq] at hdivmod
  have hqle : q ≤ f.archived :=
    Nat.le_of_mul_le_mul_left (c := g) (by omega) hgpos
  -- the corrected round is the `q`-th of the archive
  have hback : f.archived - q + 1 ≤ f.historicalLength.toNat := by
    by_contra hfar
    have hlt : q + 1 ≤ f.archived - (f.historicalLength.toNat - 1) := by omega
    have hmul : g * (q + 1) ≤ f.historicalStart := by
      rw [Feed.historicalStart, harchive, ← hg, ← Nat.mul_sub]
      exact Nat.mul_le_mul_left g hlt
    rw [Nat.mul_add, Nat.mul_one] at hmul
    omega
  obtain ⟨correctedRoundId, hcorrected⟩ := exists_toNat (n := g * q) (w := 32)
    (by have := roundId.isLt; omega)
  obtain ⟨offset, hoffset⟩ := exists_toNat (n := f.archived - q + 1) (w := 32) (by omega)
  have hlt : slotBefore f.historicalCursor.toNat f.historicalLength.toNat (f.archived - q + 1) <
      f.historicalLength.toNat := slotBefore_lt (by omega) _
  obtain ⟨slot, hslot⟩ := exists_toNat (n := slotBefore f.historicalCursor.toNat
    f.historicalLength.toNat (f.archived - q + 1)) (w := 32) (by omega)
  obtain ⟨position, hposition⟩ :=
    exists_toNat (n := f.liveLength.toNat + slot.toNat) (w := 32) (by omega)
  refine ⟨position, correctedRoundId, ?_, ?_⟩
  · rw [answerHistorical_eq_ok hf.granularity_pos (by omega), ← hg]
    refine ⟨by omega, offset, slot, ?_, ?_, hposition⟩
    · rw [hoffset, hEnd, hcorrected, harchive, ← Nat.mul_sub, Nat.mul_div_cancel_left _ hgpos]
    · rw [leftShiftRingbufferCursor_eq_ok, hoffset]
      exact ⟨hcursor, hback, by omega, hslot⟩
  · exact {
      position_lt := by omega
      corrected_le := by omega
      corrected_gt := by omega
      exact_of_live := fun h => absurd h hlive
      offset := roundOffset_of_lt (by omega) }

-- ---------------------------------------------------------------------------
-- Every lookup
-- ---------------------------------------------------------------------------

/-- **Total and in bounds.** A lookup that finds its round in one of the ranges answers within
bounds, every other one reports that there is no data, and no two live rounds share a slot. -/
theorem locateRound_total (f : Feed) (hf : f.WellFormed) :
    (∀ roundId, f.locateRound roundId = .error (.message "No data present") ↔
      ¬ f.Live roundId ∧ ¬ f.Historical roundId) ∧
    (∀ roundId, f.Live roundId ∨ f.Historical roundId → ∃ position correctedRoundId,
      f.locateRound roundId = .ok (position, correctedRoundId) ∧
        f.InBounds roundId position correctedRoundId) ∧
    (∀ a b : Uint32, f.Live a → f.Live b → a ≠ b → ∀ p q : Uint32 × Uint32,
      f.locateRound a = .ok p → f.locateRound b = .ok q → p.1 ≠ q.1) := by
  obtain ⟨historicalEnd, hEnd⟩ := f.exists_historicalEnd
  have heq : ∀ roundId : Uint32, f.locateRound roundId =
      if f.Live roundId then f.answerLive roundId
      else if f.Historical roundId then f.answerHistorical historicalEnd roundId
      else .error (.message "No data present") := fun _ => locateRound_eq hf.rangesFit hEnd
  have hanswers : ∀ roundId, f.Live roundId ∨ f.Historical roundId →
      ∃ position correctedRoundId, f.locateRound roundId = .ok (position, correctedRoundId) ∧
        f.InBounds roundId position correctedRoundId := by
    intro roundId hrange
    rw [heq]
    by_cases hlive : f.Live roundId
    · obtain ⟨position, hanswer, -, -, hbounds⟩ := answerLive_in_bounds hf hlive
      exact ⟨position, roundId, by rw [if_pos hlive, hanswer], hbounds⟩
    · have hhist := hrange.resolve_left hlive
      obtain ⟨position, corrected, hanswer, hbounds⟩ :=
        answerHistorical_in_bounds hf hlive hhist hEnd
      exact ⟨position, corrected, by rw [if_neg hlive, if_pos hhist, hanswer], hbounds⟩
  refine ⟨fun roundId => ⟨fun herror => ?_, fun hnone => ?_⟩, hanswers, ?_⟩
  · by_contra hrange
    obtain ⟨position, corrected, hok, -⟩ := hanswers roundId (by tauto)
    rw [hok] at herror
    cases herror
  · rw [heq, if_neg hnone.1, if_neg hnone.2]
  · intro a b ha hb hne p q hp hq hsame
    obtain ⟨pa, hanswerA, hslotA, hbackA, -⟩ := answerLive_in_bounds hf ha
    obtain ⟨pb, hanswerB, hslotB, hbackB, -⟩ := answerLive_in_bounds hf hb
    rw [heq, if_pos ha, hanswerA, Except.ok.injEq] at hp
    rw [heq, if_pos hb, hanswerB, Except.ok.injEq] at hq
    subst hp hq
    dsimp only at hsame
    rw [hsame] at hslotA
    have hdist := slotBefore_inj hf.live_cursor (by omega) hbackA (by omega) hbackB
      (hslotA.symm.trans hslotB)
    have hale := ha.2
    have hble := hb.2
    exact hne (BitVec.eq_of_toNat_eq (by omega))

theorem youngFeed_wellFormed : youngFeed.WellFormed where
  granularity_pos := by decide
  live_cursor := by decide
  historical_cursor := by decide
  size := by decide

/-- Round 4 of the young feed is still live. -/
theorem locateRound_total_youngFeed :
    youngFeed.Live 4 ∧ ∃ position correctedRoundId,
      youngFeed.locateRound 4 = .ok (position, correctedRoundId) ∧
        youngFeed.InBounds 4 position correctedRoundId :=
  ⟨by decide, (locateRound_total youngFeed youngFeed_wellFormed).2.1 4 (.inl (by decide))⟩

end NeonTests.Chainlink
