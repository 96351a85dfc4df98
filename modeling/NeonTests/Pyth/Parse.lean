import NeonTests.Pyth.Definitions
import NeonTests.Lib.ByteSwap

/-!
# Pyth price accounts — parsing what was serialised

`parseSolanaPriceAccountData` on the bytes of an arbitrary price account.

* `reverses_unsigned64` and its three siblings — the readers reverse the bytes
  of their word.
* `parse_serialize` — every field but one comes back; the product id that comes
  back is the feed's id, because the slice that holds the product key is
  dropped.
* `parse_serialize_iff` — so the parser inverts the encoding exactly on the
  accounts whose product key is the id they are queried by.
-/

namespace NeonTests.Pyth

open Endian Fallible Solidity BytesLib ByteSwap

-- ---------------------------------------------------------------------------
-- The little-endian readers
-- ---------------------------------------------------------------------------

theorem moves_swapWithin32 : Moves (fun i => partner 8 (partner 16 i)) swapWithin32 := by
  have h8 : Moves (partner 8) fun x : Uint64 => ((x <<< 8) &&& 0xFF00FF00FF00FF00#64) |||
      ((x >>> 8) &&& 0x00FF00FF00FF00FF#64) :=
    moves_shift_mask (by unfold SelectsOdd; decide) (by unfold SelectsEven; decide)
  have h16 : Moves (partner 16) fun x : Uint64 => ((x <<< 16) &&& 0xFFFF0000FFFF0000#64) |||
      ((x >>> 16) &&& 0x0000FFFF0000FFFF#64) :=
    moves_shift_mask (by unfold SelectsOdd; decide) (by unfold SelectsEven; decide)
  exact h16.comp h8 (by decide)

theorem moves_swapWithin16 : Moves (partner 8) swapWithin16 :=
  moves_mask_shift (by omega) (by unfold SelectsOdd; decide) (by unfold SelectsEven; decide)

/-- The word `readLittleEndianSigned64` converts. -/
theorem reverses_signed64 : ReversesBytes fun x : Uint64 =>
    (swapWithin32 x <<< 32) ||| ((swapWithin32 x >>> 32) &&& 0xFFFFFFFF#64) :=
  ((moves_halves_masked (s := 32) rfl (by unfold SelectsEven; decide)).comp moves_swapWithin32
    (by decide)).congr (by decide)

theorem reverses_unsigned64 : ReversesBytes readLittleEndianUnsigned64 :=
  ((moves_halves (s := 32) rfl).comp moves_swapWithin32 (by decide)).congr (by decide)

/-- The word `readLittleEndianSigned32` converts. -/
theorem reverses_signed32 : ReversesBytes fun x : Uint32 =>
    (swapWithin16 x <<< 16) ||| ((swapWithin16 x >>> 16) &&& 0xFFFF#32) :=
  ((moves_halves_masked (s := 16) rfl (by unfold SelectsEven; decide)).comp moves_swapWithin16
    (by decide)).congr (by decide)

theorem reverses_unsigned32 : ReversesBytes readLittleEndianUnsigned32 :=
  ((moves_halves (s := 16) rfl).comp moves_swapWithin16 (by decide)).congr (by decide)

-- ---------------------------------------------------------------------------
-- One field
-- ---------------------------------------------------------------------------

@[simp] theorem length_wordBytes {w n : Nat} (x : BitVec w) : (wordBytes n x).length = n :=
  length_leBytes ..

/-- A word written little-endian and read big-endian is right after its bytes
are reversed. -/
theorem reversed_wordBytes {w n : Nat} {f : BitVec w → BitVec w} (hf : ReversesBytes f)
    (hw : w = 8 * n) (x : BitVec w) : f (BitVec.ofNat w (beNat (wordBytes n x))) = x := by
  rw [hf.ofNat_beNat (by rw [length_wordBytes, hw]), wordBytes, leNat_leBytes]
  · exact BitVec.ofNat_toNat .. |>.trans (BitVec.setWidth_eq x)
  · have hpow : (256 : Nat) ^ n = 2 ^ w := by
      rw [hw, pow_mul]
      rfl
    rw [hpow]
    exact x.isLt

theorem signed64_wordBytes (x : Sint64) :
    readLittleEndianSigned64 (BitVec.ofNat 64 (beNat (wordBytes 8 x.toBits))) = x := by
  have := reversed_wordBytes reverses_signed64 (n := 8) rfl x.toBits
  rw [readLittleEndianSigned64]
  simp only [this, SInt.ofBits_toBits]

theorem unsigned64_wordBytes (x : Uint64) :
    readLittleEndianUnsigned64 (BitVec.ofNat 64 (beNat (wordBytes 8 x))) = x :=
  reversed_wordBytes reverses_unsigned64 rfl x

theorem signed32_wordBytes (x : Sint32) :
    readLittleEndianSigned32 (BitVec.ofNat 32 (beNat (wordBytes 4 x.toBits))) = x := by
  have := reversed_wordBytes reverses_signed32 (n := 4) rfl x.toBits
  rw [readLittleEndianSigned32]
  simp only [this, SInt.ofBits_toBits]

theorem unsigned32_wordBytes (x : Uint32) :
    readLittleEndianUnsigned32 (BitVec.ofNat 32 (beNat (wordBytes 4 x))) = x :=
  reversed_wordBytes reverses_unsigned32 rfl x

/-- A valid status converts back from its code. -/
theorem ofUint_status (s : PriceStatus) :
    PriceStatus.ofUint (readLittleEndianUnsigned32
      (BitVec.ofNat 32 (beNat (leBytes 4 s.toNat)))) = .ok s := by
  have hcode : leBytes 4 s.toNat = wordBytes 4 (BitVec.ofNat 32 s.toNat) := by
    cases s <;> rfl
  rw [hcode, unsigned32_wordBytes]
  cases s <;> rfl

-- ---------------------------------------------------------------------------
-- The whole account
-- ---------------------------------------------------------------------------

/-- The reads of the parser, one after the other. -/
theorem parse_serialize (id : BytesN 32) (a : PriceAccount) :
    parseSolanaPriceAccountData id a.serialize = .ok { a.feed id with productId := id } := by
  have h20 : a.serialize.drop 20 = _ := List.drop_left' a.header.2
  have h24 : a.serialize.drop 24 = _ := drop_next h20 (length_wordBytes _) rfl
  have h28 : a.serialize.drop 28 = _ := drop_next h24 (length_wordBytes _) rfl
  have h32 : a.serialize.drop 32 = _ := drop_next h28 (length_wordBytes _) rfl
  have h48 : a.serialize.drop 48 = _ := drop_next h32 a.slots.2 rfl
  have h56 : a.serialize.drop 56 = _ := drop_next h48 (length_wordBytes _) rfl
  have h72 : a.serialize.drop 72 = _ := drop_next h56 a.twap.2 rfl
  have h80 : a.serialize.drop 80 = _ := drop_next h72 (length_wordBytes _) rfl
  have h96 : a.serialize.drop 96 = _ := drop_next h80 a.twac.2 rfl
  have h104 : a.serialize.drop 104 = _ := drop_next h96 (length_wordBytes _) rfl
  have h112 : a.serialize.drop 112 = _ := drop_next h104 a.derived.2 rfl
  have h144 : a.serialize.drop 144 = _ := drop_next h112 a.productId.2 rfl
  have h184 : a.serialize.drop 184 = _ := drop_next h144 a.next.2 rfl
  have h192 : a.serialize.drop 192 = _ := drop_next h184 (length_wordBytes _) rfl
  have h200 : a.serialize.drop 200 = _ := drop_next h192 (length_wordBytes _) rfl
  have h208 : a.serialize.drop 208 = _ := drop_next h200 (length_wordBytes _) rfl
  have h216 : a.serialize.drop 216 = _ := drop_next h208 (length_wordBytes _) rfl
  have h224 : a.serialize.drop 224 = _ := drop_next h216 (length_wordBytes _) rfl
  unfold parseSolanaPriceAccountData
  simp only [Nat.reduceAdd, toUint32, toUint64, ok_bind,
    toUint_of_drop h20 (length_wordBytes _) (by decide),
    toUint_of_drop h24 (length_wordBytes _) (by decide),
    toUint_of_drop h28 (length_wordBytes _) (by decide),
    toUint_of_drop h48 (length_wordBytes _) (by decide),
    toUint_of_drop h72 (length_wordBytes _) (by decide),
    toUint_of_drop h96 (length_wordBytes _) (by decide),
    slice_of_drop h112 a.productId.2 (by decide) (by decide),
    toUint_of_drop h184 (length_wordBytes _) (by decide),
    toUint_of_drop h192 (length_wordBytes _) (by decide),
    toUint_of_drop h200 (length_wordBytes _) (by decide),
    toUint_of_drop h208 (length_wordBytes _) (by decide),
    toUint_of_drop h216 (length_wordBytes _) (by decide),
    toUint_of_drop h224 (length_leBytes _ _) (by decide),
    ofUint_status, signed64_wordBytes, unsigned64_wordBytes, signed32_wordBytes,
    unsigned32_wordBytes]
  rfl

/-- **The parser inverts the encoding** exactly where the product key is the
id the account is queried by. -/
theorem parse_serialize_iff (id : BytesN 32) (a : PriceAccount) :
    parseSolanaPriceAccountData id a.serialize = .ok (a.feed id) ↔ a.productId = id := by
  rw [parse_serialize]
  constructor
  · intro h
    exact (congrArg PriceFeed.productId (Except.ok.inj h)).symm
  · rintro rfl
    rfl

/-- A trading account with product key `11…1`. -/
def sampleAccount : PriceAccount where
  header := List.Vector.replicate 20 0
  expo := ⟨-8, by decide, by decide⟩
  maxNumPublishers := 32
  numPublishers := 7
  slots := List.Vector.replicate 16 0
  emaPrice := ⟨-5, by decide, by decide⟩
  twap := List.Vector.replicate 16 0
  emaConf := 3
  twac := List.Vector.replicate 16 0
  publishTime := 1700000000
  derived := List.Vector.replicate 8 0
  productId := List.Vector.replicate 32 0x11
  next := List.Vector.replicate 40 0
  prevPrice := ⟨150, by decide, by decide⟩
  prevConf := 2
  prevPublishTime := 1699999999
  price := ⟨151, by decide, by decide⟩
  conf := 1
  status := .trading
  rest := []

/-- Queried by the id `22…2`, it is parsed with that id as its product key. -/
theorem parse_sampleAccount_ne :
    parseSolanaPriceAccountData (List.Vector.replicate 32 0x22) sampleAccount.serialize ≠
      .ok (sampleAccount.feed (List.Vector.replicate 32 0x22)) := by
  rw [parse_serialize]
  intro h
  have hkey := congrArg PriceFeed.productId (Except.ok.inj h)
  exact absurd hkey (by decide)

end NeonTests.Pyth
