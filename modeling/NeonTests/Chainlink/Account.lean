import NeonTests.Chainlink.Definitions
import NeonTests.Pyth.Definitions

/-!
# Chainlink feed reader — reading the account

The rest of `contracts/libraries/Utils.sol`: a feed's header and its rounds, taken from
the bytes of a Solana account by way of the `QueryAccount` precompile. What the store
program writes into such an account stands at the end, in the layout of the comments.
-/

namespace NeonTests.Chainlink

open Endian Fallible Solidity BytesLib
open Pyth (BytesN wordBytes)

-- ---------------------------------------------------------------------------
-- Utils.sol
-- ---------------------------------------------------------------------------

structure Round where
  roundId : Uint32
  answer : Sint128
  timestamp : Uint32
  deriving DecidableEq

/-- A `string` is kept as its bytes. -/
structure Header where
  decimals : Uint8
  description : Bytes
  version : Uint8
  latestRoundId : Uint32
  liveLength : Uint32
  liveCursor : Uint32
  historicalCursor : Uint32
  granularity : Uint8
  deriving DecidableEq

def transmissionSize : Uint8 := 48
def transmissionTimestampOffset : Nat := 8
def transmissionAnswerOffset : Nat := 16

def discriminatorSize : Uint8 := 8
def headerSize : Uint8 := 192

def headerVersionOffset : Nat := 0
def headerDescriptionOffset : Nat := 98
def headerDescriptionLength : Nat := 32
def headerDecimalsOffset : Nat := 130
def headerLatestRoundIdOffset : Nat := 135
def headerGranularityOffset : Nat := 139
def headerLiveLengthOffset : Nat := 140
def headerLiveCursorOffset : Nat := 144
def headerHistoricalCursorOffset : Nat := 148

/-- `readLittleEndianUnsigned32` -/
def readLittleEndianUnsigned32 (input : Uint32) : Uint32 :=
  let input := ((input &&& 0xFF00FF00#32) >>> 8) ||| ((input &&& 0x00FF00FF#32) <<< 8)
  (input <<< 16) ||| (input >>> 16)

/-- The three masked stages of `readLittleEndianSigned128`. -/
def swapWithin64 (input : Uint128) : Uint128 :=
  let input := ((input <<< 8) &&& 0xFF00FF00FF00FF00FF00FF00FF00FF00#128) |||
    ((input >>> 8) &&& 0x00FF00FF00FF00FF00FF00FF00FF00FF#128)
  let input := ((input <<< 16) &&& 0xFFFF0000FFFF0000FFFF0000FFFF0000#128) |||
    ((input >>> 16) &&& 0x0000FFFF0000FFFF0000FFFF0000FFFF#128)
  ((input <<< 32) &&& 0xFFFFFFFF00000000FFFFFFFF00000000#128) |||
    ((input >>> 32) &&& 0x00000000FFFFFFFF00000000FFFFFFFF#128)

/-- `readLittleEndianSigned128` -/
def readLittleEndianSigned128 (input : Uint128) : Sint128 :=
  let input := swapWithin64 input
  SInt.ofBits ((input <<< 64) ||| ((input >>> 64) &&& 0xFFFFFFFFFFFFFFFF#128))

/-- `while (_bytes[length] != 0) length++`, on the bytes from `_bytes[length]` on. -/
def terminator : Uint8 → Bytes → Except Revert Uint8
  | _, [] => .error .outOfBounds
  | length, b :: rest =>
    if b = 0 then .ok length
    else do
      let length ← checkedAdd length 1
      terminator length rest

/-- `bytesToString` -/
def bytesToString (bytes : Bytes) : Except Revert Bytes := do
  let length ← terminator 0 bytes
  return bytes.take length.toNat

/-- `extractHeader` -/
def extractHeader (rawTransmissions : Bytes) : Except Revert Header := do
  let decimals ← toUint8 rawTransmissions headerDecimalsOffset
  let field ← slice rawTransmissions headerDescriptionOffset headerDescriptionLength
  let description ← bytesToString field
  let version ← toUint8 rawTransmissions headerVersionOffset
  let latestRoundId ← toUint32 rawTransmissions headerLatestRoundIdOffset
  let liveLength ← toUint32 rawTransmissions headerLiveLengthOffset
  let liveCursor ← toUint32 rawTransmissions headerLiveCursorOffset
  let historicalCursor ← toUint32 rawTransmissions headerHistoricalCursorOffset
  let granularity ← toUint8 rawTransmissions headerGranularityOffset
  return {
    decimals := decimals
    description := description
    version := version
    latestRoundId := readLittleEndianUnsigned32 latestRoundId
    liveLength := readLittleEndianUnsigned32 liveLength
    liveCursor := readLittleEndianUnsigned32 liveCursor
    historicalCursor := readLittleEndianUnsigned32 historicalCursor
    granularity := granularity }

/-- `extractRound` -/
def extractRound (roundId : Uint32) (rawTransmission : Bytes) : Except Revert Round := do
  let timestamp ← toUint32 rawTransmission transmissionTimestampOffset
  let answer ← toUint128 rawTransmission transmissionAnswerOffset
  return {
    roundId := roundId
    answer := readLittleEndianSigned128 answer
    timestamp := readLittleEndianUnsigned32 timestamp }

/-- `DISCRIMINATOR_SIZE + HEADER_SIZE + TRANSMISSION_SIZE * position`; the first sum is one
of `uint8`. -/
def roundOffset (position : Uint32) : Except Revert Uint32 := do
  let front ← checkedAdd discriminatorSize headerSize
  let behind ← checkedMul (transmissionSize.setWidth 32) position
  checkedAdd (front.setWidth 32) behind

/-- The precompile behind `QueryAccount.sol`; `σ` is what it has cached so far. The
staticcalls return whether they succeeded, and what they read. -/
structure QueryAccount (σ : Type) where
  cache : Uint256 → Uint64 → Uint64 → σ → Bool × σ
  data : Uint256 → Uint64 → Uint64 → σ → Bool × Bytes
  length : Uint256 → σ → Bool × Uint256

section

variable {σ : Type} (query : QueryAccount σ) (feedAddress : Uint256)

/-- `getHeader` -/
def getHeader (s : σ) : Except Revert (Header × σ) := do
  let cached := query.cache feedAddress (discriminatorSize.setWidth 64) (headerSize.setWidth 64) s
  require (cached.1 = true) "failed to update cache"
  let read := query.data feedAddress (discriminatorSize.setWidth 64) (headerSize.setWidth 64)
    cached.2
  require (read.1 = true) "failed to query account data"
  let header ← extractHeader read.2
  return (header, cached.2)

/-- `getRound` -/
def getRound (offset roundId : Uint32) (s : σ) : Except Revert (Round × σ) := do
  let cached := query.cache feedAddress (offset.setWidth 64) (transmissionSize.setWidth 64) s
  require (cached.1 = true) "failed to update cache"
  let read := query.data feedAddress (offset.setWidth 64) (transmissionSize.setWidth 64) cached.2
  require (read.1 = true) "failed to query account data"
  let round ← extractRound roundId read.2
  return (round, cached.2)

/-- `getLatestRound` -/
def getLatestRound (s : σ) : Except Revert (Round × σ) := do
  let (header, s) ← getHeader query feedAddress s
  let latestRoundCursor ← leftShiftRingbufferCursor header.liveCursor 1 header.liveLength
  let latestRoundOffset ← roundOffset latestRoundCursor
  getRound query feedAddress latestRoundOffset header.latestRoundId s

/-- `getRoundbyId` -/
def getRoundbyId (roundId historicalLength : Uint32) (s : σ) : Except Revert (Round × σ) := do
  let (header, s) ← getHeader query feedAddress s
  let (roundPosition, roundId) ← locateRound roundId header.liveCursor header.liveLength
    header.latestRoundId header.historicalCursor historicalLength header.granularity
  let offset ← roundOffset roundPosition
  getRound query feedAddress offset roundId s

/-- `getHistoricalLength` -/
def getHistoricalLength (liveLength : Uint32) (s : σ) : Except Revert (Uint32 × σ) := do
  let cached := query.cache feedAddress 0 1 s
  require (cached.1 = true) "failed to update cache"
  let length := query.length feedAddress cached.2
  require (length.1 = true) "failed to query account length"
  let behind ← checkedSub length.2 (discriminatorSize.setWidth 256)
  let transmissions ← checkedSub behind (headerSize.setWidth 256)
  let slots ← checkedDiv (transmissions.setWidth 32) (transmissionSize.setWidth 32)
  let historicalLength ← checkedSub slots liveLength
  return (historicalLength, cached.2)

end

-- ---------------------------------------------------------------------------
-- The account
-- ---------------------------------------------------------------------------

/-- `Transmissions`, the header the store program keeps behind the discriminator. -/
structure Transmissions where
  version : Uint8
  /-- state, owner, proposed_owner, writer -/
  roles : BytesN 97
  description : Bytes
  description_le : description.length ≤ 32
  description_text : ∀ b ∈ description, b ≠ 0
  decimals : Uint8
  flaggingThreshold : BytesN 4
  latestRoundId : Uint32
  granularity : Uint8
  liveLength : Uint32
  liveCursor : Uint32
  historicalCursor : Uint32
  /-- whatever follows the historical cursor -/
  rest : Bytes

/-- A description, padded to its field. -/
def padded (description : Bytes) : Bytes :=
  description ++ List.replicate (headerDescriptionLength - description.length) 0

def Transmissions.serialize (t : Transmissions) : Bytes :=
  wordBytes 1 t.version ++ (t.roles.toList ++ (padded t.description ++
    (wordBytes 1 t.decimals ++ (t.flaggingThreshold.toList ++ (wordBytes 4 t.latestRoundId ++
    (wordBytes 1 t.granularity ++ (wordBytes 4 t.liveLength ++ (wordBytes 4 t.liveCursor ++
    (wordBytes 4 t.historicalCursor ++ t.rest)))))))))

/-- The header these bytes stand for. -/
def Transmissions.header (t : Transmissions) : Header where
  decimals := t.decimals
  description := t.description
  version := t.version
  latestRoundId := t.latestRoundId
  liveLength := t.liveLength
  liveCursor := t.liveCursor
  historicalCursor := t.historicalCursor
  granularity := t.granularity

/-- `Transmission`, one slot of a ring. -/
structure Transmission where
  slot : BytesN 8
  timestamp : Uint32
  padding0 : BytesN 4
  answer : Sint128
  /-- _padding1, _padding2 -/
  padding : BytesN 16

def Transmission.serialize (t : Transmission) : Bytes :=
  t.slot.toList ++ (wordBytes 4 t.timestamp ++ (t.padding0.toList ++
    (wordBytes 16 t.answer.toBits ++ t.padding.toList)))

/-- The round in a slot; its id is known from where the slot is. -/
def Transmission.round (t : Transmission) (roundId : Uint32) : Round where
  roundId := roundId
  answer := t.answer
  timestamp := t.timestamp

end NeonTests.Chainlink
