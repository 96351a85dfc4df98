import NeonTests.Chainlink.Locate
import NeonTests.Chainlink.Records

/-!
# Chainlink feed reader — the newest round, read in two ways

`getLatestRound` goes straight to the slot before the live cursor. `getRoundbyId` asks
`locateRound`, which works out the historical range before it looks at the live one, so a
feed without history makes it revert on a round that is in the live ring.

`getRoundbyId_latest_iff` says when the two agree.
-/

namespace NeonTests.Chainlink

open Endian Fallible Solidity BytesLib RingBuffer

/-- What `locateRound` is asked about a feed with this header. -/
def Header.feed (header : Header) (historicalLength : Uint32) : Feed where
  latestRoundId := header.latestRoundId
  liveLength := header.liveLength
  liveCursor := header.liveCursor
  historicalLength := historicalLength
  historicalCursor := header.historicalCursor
  granularity := header.granularity
  slots := fun _ => none

section

variable {σ : Type} {query : QueryAccount σ} {feedAddress : Uint256} {s s₁ s₂ : σ}
  {header : Header} {round : Round} {f : Feed} {position roundId historicalLength : Uint32}

theorem getLatestRound_eq_ok (hheader : getHeader query feedAddress s = .ok (header, s₁)) :
    getLatestRound query feedAddress s = .ok (round, s₂) ↔
      ∃ position offset, leftShiftRingbufferCursor header.liveCursor 1 header.liveLength =
          .ok position ∧ roundOffset position = .ok offset ∧
        getRound query feedAddress offset header.latestRoundId s₁ = .ok (round, s₂) := by
  unfold getLatestRound
  rw [hheader, ok_bind]
  simp only [bind_eq_ok]
  constructor
  · intro ⟨position, hposition, offset, hoffset, hround⟩
    exact ⟨position, offset, hposition, hoffset, hround⟩
  · intro ⟨position, offset, hposition, hoffset, hround⟩
    exact ⟨position, hposition, offset, hoffset, hround⟩

theorem getRoundbyId_eq_ok (hheader : getHeader query feedAddress s = .ok (header, s₁)) :
    getRoundbyId query feedAddress roundId historicalLength s = .ok (round, s₂) ↔
      ∃ position correctedRoundId offset,
        (header.feed historicalLength).locateRound roundId = .ok (position, correctedRoundId) ∧
        roundOffset position = .ok offset ∧
        getRound query feedAddress offset correctedRoundId s₁ = .ok (round, s₂) := by
  unfold getRoundbyId
  rw [hheader, ok_bind]
  simp only [bind_eq_ok]
  constructor
  · intro ⟨⟨position, corrected⟩, hlocate, offset, hoffset, hround⟩
    exact ⟨position, corrected, offset, hlocate, hoffset, hround⟩
  · intro ⟨position, corrected, offset, hlocate, hoffset, hround⟩
    exact ⟨(position, corrected), hlocate, offset, hoffset, hround⟩

/-- The newest round is live, one place before the cursor. -/
theorem locateRound_latest (hfit : f.RangesFit)
    (hposition : leftShiftRingbufferCursor f.liveCursor 1 f.liveLength = .ok position) :
    f.locateRound f.latestRoundId = .ok (position, f.latestRoundId) := by
  obtain ⟨historicalEnd, hEnd⟩ := f.exists_historicalEnd
  have hlive : f.Live f.latestRoundId := ⟨Nat.sub_le _ _, le_rfl⟩
  rw [locateRound_eq hfit hEnd, if_pos hlive, answerLive_eq_ok le_rfl]
  exact ⟨rfl, 1, by simp, hposition⟩

/-- **The two ways agree** exactly on feeds with a historical ring, a granularity, and a span
of the one times the other that is a `uint32`. -/
theorem getRoundbyId_latest_iff (hheader : getHeader query feedAddress s = .ok (header, s₁))
    (hlatest : getLatestRound query feedAddress s = .ok (round, s₂)) :
    getRoundbyId query feedAddress header.latestRoundId historicalLength s = .ok (round, s₂) ↔
      1 ≤ historicalLength.toNat ∧ 1 ≤ header.granularity.toNat ∧
        header.granularity.toNat * (historicalLength.toNat - 1) < 2 ^ 32 := by
  obtain ⟨position, offset, hposition, hoffset, hround⟩ := (getLatestRound_eq_ok hheader).mp hlatest
  rw [getRoundbyId_eq_ok hheader]
  constructor
  · intro ⟨_, _, _, hlocate, _, _⟩
    have hfit := rangesFit_of_locateRound hlocate
    exact ⟨hfit.historical_pos, hfit.granularity_pos, hfit.span⟩
  · intro ⟨hlength, hgranularity, hspan⟩
    have hcursor := (leftShiftRingbufferCursor_eq_ok.mp hposition).1
    have hfit : (header.feed historicalLength).RangesFit :=
      ⟨Nat.one_le_of_lt hcursor, hlength, hgranularity, hspan⟩
    exact ⟨position, header.latestRoundId, offset, locateRound_latest hfit hposition, hoffset,
      hround⟩

/-- In an account of at most 10 MiB the span is a `uint32` by itself. -/
theorem span_of_getHistoricalLength {liveLength : Uint32}
    (h : getHistoricalLength query feedAddress liveLength s = .ok (historicalLength, s₁))
    (hsize : ∀ s, (query.length feedAddress s).2.toNat ≤ 10 * 1024 * 1024) (granularity : Uint8) :
    granularity.toNat * (historicalLength.toNat - 1) < 2 ^ 32 := by
  unfold getHistoricalLength at h
  simp only [bind_eq_ok, checkedSub_eq_ok, checkedDiv_eq_ok, pure_eq_ok, Prod.mk.injEq] at h
  obtain ⟨_, _, _, _, behind, hbehind, transmissions, htransmissions, slots, ⟨_, hslots⟩, length,
    hlength, rfl, _⟩ := h
  have haccount := hsize (query.cache feedAddress 0 1 s).2
  have hsetWidth : (transmissions.setWidth 32).toNat ≤ transmissions.toNat := by
    rw [BitVec.toNat_setWidth]
    exact Nat.mod_le _ _
  have hshort : length.toNat ≤ 2 ^ 18 := by
    have hdiv : slots.toNat ≤ transmissions.toNat / 48 := by
      rw [hslots]
      exact Nat.div_le_div_right hsetWidth
    omega
  calc granularity.toNat * (length.toNat - 1) ≤ 2 ^ 8 * 2 ^ 18 :=
        Nat.mul_le_mul (le_of_lt granularity.isLt) (by omega)
    _ < 2 ^ 32 := by decide

end

-- ---------------------------------------------------------------------------
-- Two accounts
-- ---------------------------------------------------------------------------

/-- The precompile over one account, whatever its address. -/
def accountQuery (account : Bytes) : QueryAccount Unit where
  cache _ offset len _ := (decide (offset.toNat + len.toNat ≤ account.length), ())
  data _ offset len _ := (true, (account.drop offset.toNat).take len.toNat)
  length _ _ := (true, BitVec.ofNat 256 account.length)

/-- One live slot, and nothing archived yet. -/
def liveOnly : Transmissions where
  version := 2
  roles := List.Vector.replicate 97 0
  description := [0x45, 0x54, 0x48]
  description_le := by decide
  description_text := by simp
  decimals := 8
  flaggingThreshold := List.Vector.replicate 4 0
  latestRoundId := 1
  granularity := 1
  liveLength := 1
  liveCursor := 0
  historicalCursor := 0
  rest := List.replicate 40 0

def firstTransmission : Transmission where
  slot := List.Vector.replicate 8 0
  timestamp := 1700000000
  padding0 := List.Vector.replicate 4 0
  answer := ⟨-7, by decide, by decide⟩
  padding := List.Vector.replicate 16 0

/-- An account with that header and so many slots, each holding the first round. -/
def liveOnlyAccount (slots : Nat) : Bytes :=
  List.replicate 8 0 ++ liveOnly.serialize ++
    (List.replicate slots firstTransmission.serialize).flatten

/-- Without a historical slot the newest round is read, and is not found by its id. -/
theorem getRoundbyId_liveOnly :
    getHistoricalLength (accountQuery (liveOnlyAccount 1)) 0 1 () = .ok (0, ()) ∧
    getLatestRound (accountQuery (liveOnlyAccount 1)) 0 () =
      .ok (firstTransmission.round 1, ()) ∧
    getRoundbyId (accountQuery (liveOnlyAccount 1)) 0 1 0 () = .error .overflow := by
  refine ⟨?_, ?_, ?_⟩ <;> decide +kernel

theorem getHeader_liveOnly :
    getHeader (accountQuery (liveOnlyAccount 2)) 0 () = .ok (liveOnly.header, ()) := by
  decide +kernel

/-- With one it is. -/
theorem getRoundbyId_latest_iff_oneArchived :
    getRoundbyId (accountQuery (liveOnlyAccount 2)) 0 liveOnly.header.latestRoundId 1 () =
        .ok (firstTransmission.round 1, ()) ↔
      1 ≤ (1 : Uint32).toNat ∧ 1 ≤ liveOnly.header.granularity.toNat ∧
        liveOnly.header.granularity.toNat * ((1 : Uint32).toNat - 1) < 2 ^ 32 :=
  getRoundbyId_latest_iff getHeader_liveOnly (by decide +kernel)

end NeonTests.Chainlink
