import NeonTests.Lib.Solidity
import NeonTests.Lib.RingBuffer

/-!
# Chainlink feed reader — definitions

The round lookup of `contracts/libraries/Utils.sol`: which slot of a feed
account a requested round is read from. The Solidity functions are translated
with their widths and their checked arithmetic; below them stand the account
they are run against, and the store program's way of filling it.
-/

namespace NeonTests.Chainlink

open Solidity RingBuffer

-- ---------------------------------------------------------------------------
-- Utils.sol
-- ---------------------------------------------------------------------------

/-- `leftShiftRingbufferCursor` -/
def leftShiftRingbufferCursor (currentCursor leftShiftItems length : Uint32) :
    Except Revert Uint32 := do
  require (currentCursor < length) "currentCursor is out of bounds"
  require (leftShiftItems ≤ length) "left shift is out of bounds"
  let sum ← checkedAdd currentCursor length
  let shifted ← checkedSub sum leftShiftItems
  checkedMod shifted length

/-- `saturatingSub` -/
def saturatingSub (a b : Uint32) : Except Revert Uint32 :=
  if a ≤ b then .ok 0 else checkedSub a b

/-- `locateRound`: the slot and the round id it is answered with. -/
def locateRound (roundId liveCursor liveLength latestRoundId historicalCursor
    historicalLength : Uint32) (granularity : Uint8) : Except Revert (Uint32 × Uint32) := do
  let step : Uint32 := granularity.setWidth 32
  let liveBack ← checkedSub liveLength 1
  let liveStartRoundId ← saturatingSub latestRoundId liveBack
  let excess ← checkedMod latestRoundId step
  let historicalEndRoundId ← checkedSub latestRoundId excess
  let historicalBack ← checkedSub historicalLength 1
  let historicalSpan ← checkedMul step historicalBack
  let historicalStartRoundId ← saturatingSub historicalEndRoundId historicalSpan
  if liveStartRoundId ≤ roundId ∧ roundId ≤ latestRoundId then do
    let correctedRoundId := roundId
    let back ← checkedSub latestRoundId correctedRoundId
    let offset ← checkedAdd back 1
    let position ← leftShiftRingbufferCursor liveCursor offset liveLength
    return (position, correctedRoundId)
  else if historicalStartRoundId ≤ roundId ∧ roundId ≤ historicalEndRoundId then do
    let rest ← checkedMod roundId step
    let correctedRoundId ← checkedSub roundId rest
    let back ← checkedSub historicalEndRoundId correctedRoundId
    let steps ← checkedDiv back step
    let offset ← checkedAdd steps 1
    let slot ← leftShiftRingbufferCursor historicalCursor offset historicalLength
    let position ← checkedAdd liveLength slot
    return (position, correctedRoundId)
  else .error (.message "No data present")

-- ---------------------------------------------------------------------------
-- The feed account
-- ---------------------------------------------------------------------------

/-- The header fields the lookup reads, the number of historical slots, and,
for every transmission slot of the account, the round it holds: the live ring
first, the historical ring behind it. -/
structure Feed where
  latestRoundId : Uint32
  liveLength : Uint32
  liveCursor : Uint32
  historicalLength : Uint32
  historicalCursor : Uint32
  granularity : Uint8
  slots : Nat → Option Nat

/-- `locateRound` with the arguments `getRoundbyId` passes for a feed. -/
def Feed.locateRound (f : Feed) (roundId : Uint32) : Except Revert (Uint32 × Uint32) :=
  Chainlink.locateRound roundId f.liveCursor f.liveLength f.latestRoundId f.historicalCursor
    f.historicalLength f.granularity

/-- The number of rounds in the historical archive so far: the multiples of
the granularity up to the latest round. -/
def Feed.archived (f : Feed) : Nat := f.latestRoundId.toNat / f.granularity.toNat

/-- The oldest round of the live range, `0` when the ring is not full yet. -/
def Feed.liveStart (f : Feed) : Nat := f.latestRoundId.toNat - (f.liveLength.toNat - 1)

/-- The layout the store program keeps: both cursors point one past the newest
item of their ring, the live ring holds the latest rounds and the historical
ring the latest multiples of the granularity. -/
structure StoreLayout (f : Feed) : Prop where
  latest_pos : 1 ≤ f.latestRoundId.toNat
  granularity_pos : 1 ≤ f.granularity.toNat
  live_cursor : f.liveCursor.toNat < f.liveLength.toNat
  historical_cursor : f.historicalCursor.toNat < f.historicalLength.toNat
  live : ∀ k, 1 ≤ k → k ≤ f.liveLength.toNat → k ≤ f.latestRoundId.toNat →
    f.slots (slotBefore f.liveCursor.toNat f.liveLength.toNat k) =
      some (f.latestRoundId.toNat - k + 1)
  historical : ∀ k, 1 ≤ k → k ≤ f.historicalLength.toNat → k ≤ f.archived →
    f.slots (f.liveLength.toNat +
        slotBefore f.historicalCursor.toNat f.historicalLength.toNat k) =
      some (f.granularity.toNat * (f.archived - k + 1))
  numbered : ∀ i r, f.slots i = some r → 1 ≤ r ∧ r ≤ f.latestRoundId.toNat

-- ---------------------------------------------------------------------------
-- The writer
-- ---------------------------------------------------------------------------

/-- The store program's two rings and the number of rounds written. -/
structure Store where
  granularity : Nat
  latest : Nat
  live : Buffer Nat
  historical : Buffer Nat

def Store.init (granularity liveLength historicalLength : Nat) : Store where
  granularity := granularity
  latest := 0
  live := Buffer.empty liveLength
  historical := Buffer.empty historicalLength

/-- One transmission: the next round enters the live ring, and the historical
ring as well if its id is a multiple of the granularity. -/
def Store.submit (s : Store) : Store where
  granularity := s.granularity
  latest := s.latest + 1
  live := s.live.push (s.latest + 1)
  historical :=
    if s.granularity ∣ s.latest + 1 then s.historical.push (s.latest + 1) else s.historical

/-- The account after `n` transmissions. -/
def Store.submits (s : Store) : Nat → Store
  | 0 => s
  | n + 1 => (s.submits n).submit

/-- The feed account the store writes. -/
def Store.feed (s : Store) : Feed where
  latestRoundId := BitVec.ofNat 32 s.latest
  liveLength := BitVec.ofNat 32 s.live.len
  liveCursor := BitVec.ofNat 32 s.live.cursor
  historicalLength := BitVec.ofNat 32 s.historical.len
  historicalCursor := BitVec.ofNat 32 s.historical.cursor
  granularity := BitVec.ofNat 8 s.granularity
  slots := fun i =>
    if i < s.live.len then s.live.slots i else s.historical.slots (i - s.live.len)

end NeonTests.Chainlink
