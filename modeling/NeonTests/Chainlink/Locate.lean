import NeonTests.Chainlink.Definitions

/-!
# Chainlink feed reader — which round a lookup returns

`locateRound` over feeds in the layout the store program keeps.

* `leftShiftRingbufferCursor_eq_ok`, `locateRound_eq_ok` — what the two
  functions return, over `Nat`, with every way they can revert.
* `locateRound_reads_own_round_iff` — the slot a successful lookup returns
  holds the round it reports, except for one kind of request: a round below
  the granularity, already out of the live range, on a feed whose historical
  ring is not full. There the historical search rounds down to round 0, which
  was never written.
* `storeLayout_submits` — the layout is what a run of transmissions produces.
-/

namespace NeonTests.Chainlink

open Fallible Solidity RingBuffer

-- ---------------------------------------------------------------------------
-- The functions over Nat
-- ---------------------------------------------------------------------------

theorem leftShiftRingbufferCursor_eq_ok {cursor items length position : Uint32} :
    leftShiftRingbufferCursor cursor items length = .ok position ↔
      cursor.toNat < length.toNat ∧ items.toNat ≤ length.toNat ∧
        cursor.toNat + length.toNat < 2 ^ 32 ∧
        position.toNat = slotBefore cursor.toNat length.toNat items.toNat := by
  unfold leftShiftRingbufferCursor
  simp only [bind_eq_ok, require_eq_ok, BitVec.lt_def, BitVec.le_def, checkedAdd_eq_ok,
    checkedSub_eq_ok, checkedMod_eq_ok, slotBefore]
  constructor
  · rintro ⟨-, hc, -, hi, sum, hsum, shifted, hsub, -, hpos⟩
    have := sum.isLt
    refine ⟨hc, hi, by omega, ?_⟩
    rw [hpos, ← hsum, ← hsub, Nat.add_sub_cancel]
  · rintro ⟨hc, hi, hfits, hpos⟩
    obtain ⟨sum, hsum⟩ := exists_toNat hfits
    obtain ⟨shifted, hshifted⟩ :=
      exists_toNat (n := cursor.toNat + length.toNat - items.toNat) (w := 32) (by omega)
    exact ⟨(), hc, (), hi, sum, hsum, shifted, by omega, by omega, by rw [hpos, hshifted]⟩

/-- Saturating subtraction never reverts; over `Nat` it is subtraction. -/
theorem saturatingSub_eq_ok {a b c : Uint32} :
    saturatingSub a b = .ok c ↔ c.toNat = a.toNat - b.toNat := by
  unfold saturatingSub
  split
  · next h =>
    rw [BitVec.le_def] at h
    rw [Except.ok.injEq, ← BitVec.toNat_inj]
    simp only [BitVec.ofNat_eq_ofNat, BitVec.toNat_ofNat]
    omega
  · next h =>
    rw [BitVec.le_def] at h
    rw [checkedSub_eq_ok]
    omega

variable {f : Feed} {roundId position correctedRoundId : Uint32}

/-- The last round of the historical archive. -/
def Feed.historicalEnd (f : Feed) : Nat := f.granularity.toNat * f.archived

/-- The first round of the historical range, `0` when the ring is not full. -/
def Feed.historicalStart (f : Feed) : Nat :=
  f.historicalEnd - f.granularity.toNat * (f.historicalLength.toNat - 1)

/-- The request is answered from the live ring. -/
def Feed.Live (f : Feed) (roundId : Uint32) : Prop :=
  f.liveStart ≤ roundId.toNat ∧ roundId.toNat ≤ f.latestRoundId.toNat

instance : Decidable (f.Live roundId) := inferInstanceAs (Decidable (_ ∧ _))

/-- The request is within the historical range. -/
def Feed.Historical (f : Feed) (roundId : Uint32) : Prop :=
  f.historicalStart ≤ roundId.toNat ∧ roundId.toNat ≤ f.historicalEnd

instance : Decidable (f.Historical roundId) := inferInstanceAs (Decidable (_ ∧ _))

/-- The bounds under which no step of the range computation reverts. -/
structure Feed.RangesFit (f : Feed) : Prop where
  live_pos : 1 ≤ f.liveLength.toNat
  historical_pos : 1 ≤ f.historicalLength.toNat
  granularity_pos : 1 ≤ f.granularity.toNat
  span : f.granularity.toNat * (f.historicalLength.toNat - 1) < 2 ^ 32

/-- The live branch of `locateRound`. -/
def Feed.answerLive (f : Feed) (roundId : Uint32) : Except Revert (Uint32 × Uint32) := do
  let back ← checkedSub f.latestRoundId roundId
  let offset ← checkedAdd back 1
  let position ← leftShiftRingbufferCursor f.liveCursor offset f.liveLength
  return (position, roundId)

/-- The historical branch of `locateRound`. -/
def Feed.answerHistorical (f : Feed) (historicalEnd roundId : Uint32) :
    Except Revert (Uint32 × Uint32) := do
  let rest ← checkedMod roundId (f.granularity.setWidth 32)
  let correctedRoundId ← checkedSub roundId rest
  let back ← checkedSub historicalEnd correctedRoundId
  let steps ← checkedDiv back (f.granularity.setWidth 32)
  let offset ← checkedAdd steps 1
  let slot ← leftShiftRingbufferCursor f.historicalCursor offset f.historicalLength
  let position ← checkedAdd f.liveLength slot
  return (position, correctedRoundId)

theorem Feed.historicalEnd_add_mod (f : Feed) :
    f.historicalEnd + f.latestRoundId.toNat % f.granularity.toNat = f.latestRoundId.toNat :=
  Nat.div_add_mod ..

theorem Feed.exists_historicalEnd (f : Feed) : ∃ e : Uint32, e.toNat = f.historicalEnd := by
  have := f.historicalEnd_add_mod
  have := f.latestRoundId.isLt
  exact exists_toNat (by omega)

private theorem toNat_one : (1 : Uint32).toNat = 1 := rfl

private theorem toNat_step (g : Uint8) : (g.setWidth 32).toNat = g.toNat :=
  toNat_setWidth_of_le (by decide) g

/-- A lookup that returns got through its range computation. -/
theorem rangesFit_of_locateRound {answer : Uint32 × Uint32}
    (h : f.locateRound roundId = .ok answer) : f.RangesFit := by
  unfold Feed.locateRound locateRound at h
  simp only [bind_eq_ok, checkedSub_eq_ok, checkedMod_eq_ok, checkedMul_eq_ok, toNat_one,
    toNat_step] at h
  obtain ⟨liveBack, hlb, -, -, -, ⟨hg, -⟩, -, -, histBack, hhb, span, hspan, -⟩ := h
  refine ⟨by omega, by omega, hg, ?_⟩
  rw [show f.historicalLength.toNat - 1 = histBack.toNat by omega, ← hspan]
  exact span.isLt

/-- Where the range computation fits, `locateRound` is its case distinction. -/
theorem locateRound_eq (hfit : f.RangesFit) {historicalEnd : Uint32}
    (hEnd : historicalEnd.toNat = f.historicalEnd) :
    f.locateRound roundId =
      if f.Live roundId then f.answerLive roundId
      else if f.Historical roundId then f.answerHistorical historicalEnd roundId
      else .error (.message "No data present") := by
  obtain ⟨hL, hH, hg, hspan⟩ := hfit
  have hmodEnd := f.historicalEnd_add_mod
  have hlt := f.latestRoundId.isLt
  have hLlt := f.liveLength.isLt
  have hHlt := f.historicalLength.isLt
  obtain ⟨liveBack, hlb⟩ := exists_toNat (n := f.liveLength.toNat - 1) (w := 32) (by omega)
  obtain ⟨liveStart, hls⟩ := exists_toNat (n := f.liveStart) (w := 32)
    (by unfold Feed.liveStart; omega)
  obtain ⟨excess, hexcess⟩ :=
    exists_toNat (n := f.latestRoundId.toNat % f.granularity.toNat) (w := 32) (by omega)
  obtain ⟨histBack, hhb⟩ :=
    exists_toNat (n := f.historicalLength.toNat - 1) (w := 32) (by omega)
  obtain ⟨span, hsp⟩ := exists_toNat hspan
  obtain ⟨histStart, hhs⟩ := exists_toNat (n := f.historicalStart) (w := 32)
    (by unfold Feed.historicalStart; omega)
  have h1 : checkedSub f.liveLength 1 = .ok liveBack :=
    checkedSub_eq_ok.mpr (by rw [toNat_one]; omega)
  have h2 : saturatingSub f.latestRoundId liveBack = .ok liveStart :=
    saturatingSub_eq_ok.mpr (by rw [hls, hlb, Feed.liveStart])
  have h3 : checkedMod f.latestRoundId (f.granularity.setWidth 32) = .ok excess :=
    checkedMod_eq_ok.mpr (by rw [toNat_step]; exact ⟨hg, hexcess⟩)
  have h4 : checkedSub f.latestRoundId excess = .ok historicalEnd :=
    checkedSub_eq_ok.mpr (by omega)
  have h5 : checkedSub f.historicalLength 1 = .ok histBack :=
    checkedSub_eq_ok.mpr (by rw [toNat_one]; omega)
  have h6 : checkedMul (f.granularity.setWidth 32) histBack = .ok span :=
    checkedMul_eq_ok.mpr (by rw [toNat_step, hsp, hhb])
  have h7 : saturatingSub historicalEnd span = .ok histStart :=
    saturatingSub_eq_ok.mpr (by rw [hhs, hsp, hEnd, Feed.historicalStart])
  unfold Feed.locateRound locateRound
  simp only [h1, h2, h3, h4, h5, h6, h7, ok_bind, BitVec.le_def, hls, hhs, hEnd]
  rfl

theorem answerLive_eq_ok (hle : roundId.toNat ≤ f.latestRoundId.toNat) :
    f.answerLive roundId = .ok (position, correctedRoundId) ↔
      correctedRoundId = roundId ∧
      ∃ offset : Uint32, offset.toNat = f.latestRoundId.toNat - roundId.toNat + 1 ∧
        leftShiftRingbufferCursor f.liveCursor offset f.liveLength = .ok position := by
  unfold Feed.answerLive
  simp only [bind_eq_ok, checkedSub_eq_ok, checkedAdd_eq_ok, pure_eq_ok, Prod.mk.injEq,
    toNat_one]
  constructor
  · rintro ⟨back, hback, offset, hoffset, pos, hpos, rfl, rfl⟩
    exact ⟨rfl, offset, by omega, hpos⟩
  · rintro ⟨rfl, offset, hoffset, hpos⟩
    obtain ⟨back, hback⟩ := exists_toNat
      (n := f.latestRoundId.toNat - correctedRoundId.toNat) (w := 32)
      (by have := f.latestRoundId.isLt; omega)
    exact ⟨back, by omega, offset, by omega, position, hpos, rfl, rfl⟩

theorem answerHistorical_eq_ok (hg : 1 ≤ f.granularity.toNat) {historicalEnd : Uint32}
    (hle : roundId.toNat ≤ historicalEnd.toNat) :
    f.answerHistorical historicalEnd roundId = .ok (position, correctedRoundId) ↔
      correctedRoundId.toNat + roundId.toNat % f.granularity.toNat = roundId.toNat ∧
      ∃ offset slot : Uint32,
        offset.toNat =
          (historicalEnd.toNat - correctedRoundId.toNat) / f.granularity.toNat + 1 ∧
        leftShiftRingbufferCursor f.historicalCursor offset f.historicalLength = .ok slot ∧
        position.toNat = f.liveLength.toNat + slot.toNat := by
  unfold Feed.answerHistorical
  simp only [bind_eq_ok, checkedMod_eq_ok, checkedSub_eq_ok, checkedDiv_eq_ok, checkedAdd_eq_ok,
    pure_eq_ok, Prod.mk.injEq, toNat_one, toNat_step]
  constructor
  · rintro ⟨rest, ⟨-, hrest⟩, corr, hcorr, back, hback, steps, ⟨-, hsteps⟩, offset, hoffset,
      slot, hslot, pos, hpos, rfl, rfl⟩
    refine ⟨by omega, offset, slot, ?_, hslot, hpos⟩
    rw [hoffset, hsteps, show back.toNat = historicalEnd.toNat - corr.toNat by omega]
  · rintro ⟨hcorr, offset, slot, hoffset, hslot, hpos⟩
    have hElt := historicalEnd.isLt
    have hdiv := Nat.div_le_self (historicalEnd.toNat - correctedRoundId.toNat)
      f.granularity.toNat
    obtain ⟨rest, hrest⟩ :=
      exists_toNat (n := roundId.toNat % f.granularity.toNat) (w := 32) (by omega)
    obtain ⟨back, hback⟩ :=
      exists_toNat (n := historicalEnd.toNat - correctedRoundId.toNat) (w := 32) (by omega)
    obtain ⟨steps, hsteps⟩ :=
      exists_toNat (n := back.toNat / f.granularity.toNat) (w := 32) (by rw [hback]; omega)
    exact ⟨rest, ⟨hg, hrest⟩, correctedRoundId, by omega, back, by omega, steps, ⟨hg, hsteps⟩,
      offset, by rw [hoffset, hsteps, hback], slot, hslot, position, hpos, rfl, rfl⟩

-- ---------------------------------------------------------------------------
-- The slot a lookup returns
-- ---------------------------------------------------------------------------

/-- The requests the historical search answers with a round that was never
written: a round below the granularity, older than the live range, while the
archive has rounds but has not filled its ring, and no bound is near overflow. -/
structure Feed.AsksBeforeArchive (f : Feed) (roundId : Uint32) : Prop where
  below_granularity : roundId.toNat < f.granularity.toNat
  before_live : roundId.toNat < f.liveStart
  archive_started : 1 ≤ f.archived
  archive_not_full : f.archived < f.historicalLength.toNat
  span_fits : f.granularity.toNat * (f.historicalLength.toNat - 1) < 2 ^ 32
  cursor_fits : f.historicalCursor.toNat + f.historicalLength.toNat < 2 ^ 32
  position_fits : f.liveLength.toNat +
    slotBefore f.historicalCursor.toNat f.historicalLength.toNat (f.archived + 1) < 2 ^ 32

/-- A round found in the live range is in the slot it is read from. -/
theorem live_reads_own_round (hf : StoreLayout f) (hr : 1 ≤ roundId.toNat)
    (hle : roundId.toNat ≤ f.latestRoundId.toNat)
    (h : f.answerLive roundId = .ok (position, correctedRoundId)) :
    f.slots position.toNat = some correctedRoundId.toNat := by
  obtain ⟨rfl, offset, hoffset, hpos⟩ := (answerLive_eq_ok hle).mp h
  obtain ⟨-, hlen, -, hslot⟩ := leftShiftRingbufferCursor_eq_ok.mp hpos
  rw [hslot, hf.live offset.toNat (by omega) hlen (by omega)]
  congr 1
  omega

/-- A round rounded down within the archive is in the slot it is read from. -/
theorem historical_reads_own_round (hf : StoreLayout f) {historicalEnd : Uint32}
    (hEnd : historicalEnd.toNat = f.historicalEnd)
    (hle : roundId.toNat ≤ f.historicalEnd) (hg : f.granularity.toNat ≤ roundId.toNat)
    (h : f.answerHistorical historicalEnd roundId = .ok (position, correctedRoundId)) :
    f.slots position.toNat = some correctedRoundId.toNat := by
  have hgpos := hf.granularity_pos
  obtain ⟨hcorr, offset, slot, hoffset, hshift, hpos⟩ :=
    (answerHistorical_eq_ok hgpos (by omega)).mp h
  obtain ⟨-, hlen, -, hslot⟩ := leftShiftRingbufferCursor_eq_ok.mp hshift
  have hdivmod := Nat.div_add_mod roundId.toNat f.granularity.toNat
  -- the corrected round is the `q`-th of the archive
  set g := f.granularity.toNat
  set q := roundId.toNat / g
  have hq : correctedRoundId.toNat = g * q := by omega
  have hqpos : 1 ≤ q := (Nat.one_le_div_iff hgpos).mpr hg
  have hqle : q ≤ f.archived := by
    have : g * q ≤ g * f.archived := by
      rw [← hq]
      exact le_trans (by omega) hle
    exact Nat.le_of_mul_le_mul_left this hgpos
  have hback : (historicalEnd.toNat - correctedRoundId.toNat) / g = f.archived - q := by
    rw [hEnd, hq, Feed.historicalEnd, ← Nat.mul_sub, Nat.mul_div_cancel_left _ hgpos]
  rw [hback] at hoffset
  rw [hpos, hslot, hf.historical offset.toNat (by omega) hlen (by omega), hq]
  congr 2
  omega

/-- Out of the live range and below the granularity, a historical answer means
the archive has started and is not full. -/
theorem asksBeforeArchive_of_answer (hr : 1 ≤ roundId.toNat) (hfit : f.RangesFit)
    (hlive : ¬ f.Live roundId) {historicalEnd : Uint32}
    (hEnd : historicalEnd.toNat = f.historicalEnd) (hle : roundId.toNat ≤ f.historicalEnd)
    (hg : roundId.toNat < f.granularity.toNat)
    (h : f.answerHistorical historicalEnd roundId = .ok (position, correctedRoundId)) :
    f.AsksBeforeArchive roundId := by
  have hgpos := hfit.granularity_pos
  have hend := f.historicalEnd_add_mod
  obtain ⟨hcorr, offset, slot, hoffset, hshift, hpos⟩ :=
    (answerHistorical_eq_ok hgpos (by omega)).mp h
  obtain ⟨hcursor, hlen, hcfits, hslot⟩ := leftShiftRingbufferCursor_eq_ok.mp hshift
  rw [Nat.mod_eq_of_lt hg] at hcorr
  have hzero : correctedRoundId.toNat = 0 := by omega
  have hback : offset.toNat = f.archived + 1 := by
    rw [hoffset, hEnd, hzero, Nat.sub_zero, Feed.historicalEnd, Nat.mul_div_cancel_left _ hgpos]
  have hstarted : 1 ≤ f.archived := by
    rcases Nat.eq_zero_or_pos f.archived with h0 | hpos
    · rw [Feed.historicalEnd, h0] at hle
      omega
    · exact hpos
  have hplt := position.isLt
  refine ⟨hg, ?_, hstarted, by omega, hfit.span, hcfits, ?_⟩
  · rcases Nat.lt_or_ge roundId.toNat f.liveStart with hlt | hge
    · exact hlt
    · exact absurd ⟨hge, by omega⟩ hlive
  · rw [← hback, ← hslot, ← hpos]
    exact hplt

/-- On such a request the lookup succeeds, with round 0. -/
theorem locateRound_of_asksBeforeArchive (hf : StoreLayout f)
    (hr : 1 ≤ roundId.toNat) (h : f.AsksBeforeArchive roundId) :
    ∃ position, f.locateRound roundId = .ok (position, 0) := by
  obtain ⟨hg, hlive, hstarted, hfull, hspan, hcfits, hpfits⟩ := h
  have hgpos := hf.granularity_pos
  have hcursor := hf.historical_cursor
  have hlcursor := hf.live_cursor
  have hfit : f.RangesFit := ⟨by omega, by omega, hgpos, hspan⟩
  obtain ⟨historicalEnd, hEnd⟩ := f.exists_historicalEnd
  have hle : roundId.toNat ≤ f.historicalEnd := by
    have : f.granularity.toNat * 1 ≤ f.historicalEnd := Nat.mul_le_mul_left _ hstarted
    omega
  have hhist : f.Historical roundId := by
    have : f.historicalEnd ≤ f.granularity.toNat * (f.historicalLength.toNat - 1) :=
      Nat.mul_le_mul_left _ (by omega)
    exact ⟨by unfold Feed.historicalStart; omega, hle⟩
  obtain ⟨offset, hoffset⟩ := exists_toNat (n := f.archived + 1) (w := 32)
    (by have := f.historicalLength.isLt; omega)
  obtain ⟨slot, hslot⟩ := exists_toNat
    (n := slotBefore f.historicalCursor.toNat f.historicalLength.toNat (f.archived + 1))
    (w := 32) (by omega)
  obtain ⟨position, hposition⟩ := exists_toNat hpfits
  refine ⟨position, ?_⟩
  rw [locateRound_eq hfit hEnd, if_neg (fun hl => by have := hl.1; omega), if_pos hhist,
    answerHistorical_eq_ok hgpos (by omega)]
  have h0 : (0 : Uint32).toNat = 0 := rfl
  refine ⟨by rw [h0, Nat.mod_eq_of_lt hg, Nat.zero_add], offset, slot, ?_, ?_, by omega⟩
  · rw [hoffset, h0, Nat.sub_zero, hEnd, Feed.historicalEnd, Nat.mul_div_cancel_left _ hgpos]
  · rw [leftShiftRingbufferCursor_eq_ok]
    exact ⟨hcursor, by omega, hcfits, by rw [hslot, hoffset]⟩

/-- **A lookup reads the round it reports** — exactly for the requests that are
not `AsksBeforeArchive`. -/
theorem locateRound_reads_own_round_iff (f : Feed) (hf : StoreLayout f) (roundId : Uint32)
    (hr : 1 ≤ roundId.toNat) :
    (∀ position correctedRoundId, f.locateRound roundId = .ok (position, correctedRoundId) →
      f.slots position.toNat = some correctedRoundId.toNat) ↔
    ¬ f.AsksBeforeArchive roundId := by
  constructor
  · intro hall hask
    obtain ⟨position, hpos⟩ := locateRound_of_asksBeforeArchive hf hr hask
    have := (hf.numbered _ _ (hall position 0 hpos)).1
    simp at this
  · intro hask position correctedRoundId h
    have hfit := rangesFit_of_locateRound h
    obtain ⟨historicalEnd, hEnd⟩ := f.exists_historicalEnd
    rw [locateRound_eq hfit hEnd] at h
    split_ifs at h with hlive hhist
    · exact live_reads_own_round hf hr hlive.2 h
    · rcases Nat.lt_or_ge roundId.toNat f.granularity.toNat with hlt | hge
      · exact absurd (asksBeforeArchive_of_answer hr hfit hlive hEnd hhist.2 hlt h) hask
      · exact historical_reads_own_round hf hEnd hhist.2 hge h

-- ---------------------------------------------------------------------------
-- The layout is what the store program writes
-- ---------------------------------------------------------------------------

/-- What a store's rings hold after `n` transmissions. -/
structure Store.Filled (s : Store) (n : Nat) : Prop where
  latest_eq : s.latest = n
  live : s.live.Holds (fun i => i + 1) n
  historical : s.historical.Holds (fun i => s.granularity * (i + 1)) (n / s.granularity)

/-- One transmission. -/
theorem Store.Filled.submit {s : Store} {n : Nat} (h : s.Filled n) : s.submit.Filled (n + 1) := by
  obtain ⟨hlatest, hlive, hhist⟩ := h
  refine ⟨by rw [Store.submit, hlatest], ?_, ?_⟩
  · have := hlive.push
    rwa [Store.submit, hlatest]
  · unfold Store.submit
    rw [hlatest]
    simp only [Nat.succ_div]
    by_cases hdvd : s.granularity ∣ n + 1
    · have hitem : n + 1 = s.granularity * (n / s.granularity + 1) := by
        have := Nat.mul_div_cancel' hdvd
        rw [Nat.succ_div, if_pos hdvd] at this
        exact this.symm
      rw [if_pos hdvd, if_pos hdvd]
      have := hhist.push
      rwa [← hitem] at this
    · rw [if_neg hdvd, if_neg hdvd, Nat.add_zero]
      exact hhist

theorem Store.filled_submits (granularity : Nat) {liveLength historicalLength : Nat}
    (hL : 1 ≤ liveLength) (hH : 1 ≤ historicalLength) (n : Nat) :
    ((Store.init granularity liveLength historicalLength).submits n).Filled n := by
  induction n with
  | zero =>
    refine ⟨rfl, Buffer.holds_empty hL _, ?_⟩
    rw [Nat.zero_div]
    exact Buffer.holds_empty hH _
  | succ n ih => exact ih.submit

theorem Store.submits_lengths (s : Store) (n : Nat) :
    (s.submits n).granularity = s.granularity ∧ (s.submits n).live.len = s.live.len ∧
      (s.submits n).historical.len = s.historical.len := by
  induction n with
  | zero => exact ⟨rfl, rfl, rfl⟩
  | succ n ih =>
    obtain ⟨hg, hl, hh⟩ := ih
    refine ⟨hg, hl, ?_⟩
    rw [Store.submits, Store.submit]
    split
    · exact hh
    · exact hh

/-- Any number of transmissions leaves a feed in the layout. -/
theorem storeLayout_submits {granularity liveLength historicalLength n : Nat}
    (hg : 1 ≤ granularity) (hg' : granularity < 2 ^ 8)
    (hL : 1 ≤ liveLength) (hL' : liveLength < 2 ^ 32)
    (hH : 1 ≤ historicalLength) (hH' : historicalLength < 2 ^ 32)
    (hn : 1 ≤ n) (hn' : n < 2 ^ 32) :
    StoreLayout ((Store.init granularity liveLength historicalLength).submits n).feed := by
  have hfill := Store.filled_submits granularity hL hH n
  obtain ⟨hgran, hll, hhl⟩ :=
    Store.submits_lengths (Store.init granularity liveLength historicalLength) n
  set s := (Store.init granularity liveLength historicalLength).submits n
  obtain ⟨hlatest, hlive, hhist⟩ := hfill
  have hlc := hlive.cursor_lt
  have hhc := hhist.cursor_lt
  rw [show (Store.init granularity liveLength historicalLength).granularity = granularity
    from rfl] at hgran
  rw [show (Store.init granularity liveLength historicalLength).live.len = liveLength
    from rfl] at hll
  rw [show (Store.init granularity liveLength historicalLength).historical.len =
    historicalLength from rfl] at hhl
  have eLatest : s.feed.latestRoundId.toNat = n := by
    rw [Store.feed, BitVec.toNat_ofNat, hlatest, Nat.mod_eq_of_lt hn']
  have eGran : s.feed.granularity.toNat = granularity := by
    rw [Store.feed, BitVec.toNat_ofNat, hgran, Nat.mod_eq_of_lt hg']
  have eLive : s.feed.liveLength.toNat = s.live.len := by
    rw [Store.feed, BitVec.toNat_ofNat, Nat.mod_eq_of_lt (by omega)]
  have eLiveCursor : s.feed.liveCursor.toNat = s.live.cursor := by
    rw [Store.feed, BitVec.toNat_ofNat, Nat.mod_eq_of_lt (by omega)]
  have eHist : s.feed.historicalLength.toNat = s.historical.len := by
    rw [Store.feed, BitVec.toNat_ofNat, Nat.mod_eq_of_lt (by omega)]
  have eHistCursor : s.feed.historicalCursor.toNat = s.historical.cursor := by
    rw [Store.feed, BitVec.toNat_ofNat, Nat.mod_eq_of_lt (by omega)]
  have eArchived : s.feed.archived = n / s.granularity := by
    rw [Feed.archived, eLatest, eGran, hgran]
  refine ⟨by omega, by omega, by omega, by omega, ?_, ?_, ?_⟩
  · intro k hk hlen hle
    rw [eLive] at hlen
    rw [eLatest] at hle ⊢
    rw [eLive, eLiveCursor]
    have hpos : 0 < s.live.len := by omega
    have hslot : slotBefore s.live.cursor s.live.len k < s.live.len := slotBefore_lt hpos k
    simp only [Store.feed, if_pos hslot]
    exact hlive.newest k (by omega) hlen hle
  · intro k hk hlen hle
    rw [eHist] at hlen
    rw [eArchived] at hle ⊢
    rw [eLive, eHist, eHistCursor, eGran, ← hgran]
    simp only [Store.feed, if_neg (Nat.not_lt.mpr (Nat.le_add_right _ _)),
      Nat.add_sub_cancel_left]
    exact hhist.newest k (by omega) hlen hle
  · intro i r hr
    rw [eLatest]
    simp only [Store.feed] at hr
    split at hr
    · obtain ⟨j, hj, rfl⟩ := hlive.only i r hr
      omega
    · obtain ⟨j, hj, rfl⟩ := hhist.only _ r hr
      have hle : s.granularity * (j + 1) ≤ s.granularity * (n / s.granularity) :=
        Nat.mul_le_mul_left _ (by omega)
      have := Nat.mul_div_le n s.granularity
      have : s.granularity * 1 ≤ s.granularity * (j + 1) := Nat.mul_le_mul_left _ (by omega)
      omega

/-- A young feed: five rounds, every second one archived in a ring of ten. -/
def youngFeed : Feed := ((Store.init 2 2 10).submits 5).feed

theorem youngFeed_layout : StoreLayout youngFeed :=
  storeLayout_submits (by omega) (by omega) (by omega) (by omega) (by omega) (by omega)
    (by omega) (by omega)

/-- Round 1 of the young feed has left the live ring and was never archived:
the lookup answers with round 0 and a slot that was never written. -/
theorem locateRound_youngFeed_one :
    StoreLayout youngFeed ∧ youngFeed.locateRound 1 = .ok (11, 0) ∧
      youngFeed.slots (11 : Uint32).toNat = none :=
  ⟨youngFeed_layout, rfl, rfl⟩

/-- Round 3 of the young feed is answered with the archived round 2. -/
theorem locateRound_reads_own_round_iff_youngFeed :
    (∀ position correctedRoundId, youngFeed.locateRound 3 = .ok (position, correctedRoundId) →
      youngFeed.slots position.toNat = some correctedRoundId.toNat) ↔
    ¬ youngFeed.AsksBeforeArchive 3 :=
  locateRound_reads_own_round_iff youngFeed youngFeed_layout 3 (by decide)

end NeonTests.Chainlink
