import NeonTests.Transaction.Signing

/-!
# Legacy transactions — written back

`__str__` packs the two numbers of the signature in a path of their own, as 32 bytes
each. That is the format's encoding of a number only if it has no zero byte in front.

* `pack_padded` — what `pack` makes of a number in 32 bytes;
* `str_iff` — exactly when a transaction is written back as it was read.
-/

namespace NeonTests.Transaction

open Endian Fallible Python Rlp RlpItem

variable {t : SignedTx}

-- ---------------------------------------------------------------------------
-- Numbers of 32 bytes
-- ---------------------------------------------------------------------------

/-- A number of the signature, as `__str__` packs it. -/
def padded (n : Nat) : Item := .string (beBytes 32 n)

theorem signatureBytes_scalar {n : Nat} (hpos : 1 ≤ n) (h : n < 2 ^ 256) :
    signatureBytes (scalarInt n) = .ok (.bytes (beBytes 32 n)) := by
  have hne : (n : Int) ≠ 0 := by omega
  rw [scalarInt_pos hpos, signatureBytes, if_neg hne, toBytesBig_natCast (by simpa using h)]
  rfl

theorem encode_padded (n : Nat) : (padded n).encode = header 0x80 32 ++ beBytes 32 n := by
  have hlength : (beBytes 32 n).length = 32 := length_beBytes 32 n
  rw [padded, Item.encode, encodeString_of_not (fun h => by omega), hlength]

theorem pack_padded (n : Nat) : pack (.bytes (beBytes 32 n)) = .ok (padded n).encode := by
  have hlength : (beBytes 32 n).length = 32 := length_beBytes 32 n
  rw [pack, packBytes_eq (by rw [hlength]; decide), encode_padded, hlength]

theorem length_encode_padded (n : Nat) : (padded n).encode.length = 33 := by
  rw [encode_padded, List.length_append, length_beBytes]
  rfl

/-- Without a zero byte in front, the two encodings are one. -/
theorem padded_eq {n : Nat} (h : n < 2 ^ 256) (hfull : 2 ^ 248 ≤ n) : padded n = .scalar n := by
  have hle : byteLength n ≤ 32 := byteLength_le_iff.mpr (by simpa using h)
  have hge : ¬ byteLength n ≤ 31 := by
    rw [byteLength_le_iff]
    omega
  rw [padded, Item.scalar, minBytes, show byteLength n = 32 by omega]

/-- With one, the padded encoding is longer. -/
theorem length_encode_scalar_lt {n : Nat} (h : n < 2 ^ 248) : (Item.scalar n).encode.length < 33 := by
  have hle : byteLength n ≤ 31 := byteLength_le_iff.mpr (by simpa using h)
  rcases Nat.lt_or_ge n 0x80 with hsmall | hbig
  · rcases Nat.eq_zero_or_pos n with rfl | hpos
    · decide
    · rw [encode_scalar_byte hpos hsmall, List.length_singleton]
      omega
  · rw [encode_scalar_big hbig, header_short (by omega), List.length_append, length_minBytes]
    show 1 + byteLength n < 33
    omega

theorem length_encode_scalar_le {n : Nat} (h : n < 2 ^ 256) :
    (Item.scalar n).encode.length ≤ 33 := by
  rcases Nat.lt_or_ge n (2 ^ 248) with hshort | hfull
  · exact (length_encode_scalar_lt hshort).le
  · rw [← padded_eq h hfull, length_encode_padded]

-- ---------------------------------------------------------------------------
-- __str__
-- ---------------------------------------------------------------------------

/-- The items `__str__` writes. -/
def SignedTx.paddedItems (t : SignedTx) : List Item :=
  t.callItems ++ [.scalar t.v, padded t.r, padded t.s]

/-- A signature of Ethereum: two positive numbers below `2 ^ 256`. The other numbers
may have as many bytes as `pack` has prefixes for, far more than Ethereum allows. -/
structure SignedTx.InRange (t : SignedTx) : Prop extends t.WellFormed where
  r_lt : t.r < 2 ^ 256
  s_lt : t.s < 2 ^ 256
  numbers : ∀ n ∈ [t.nonce, t.gasPrice, t.gasLimit, t.value, t.v], n < 256 ^ 55

theorem packItems_padded (h : t.InRange) :
    packItems (t.callValues ++ [ofInt (scalarInt t.v), .bytes (beBytes 32 t.r),
      .bytes (beBytes 32 t.s)]) = .ok (encodeAll t.paddedItems) := by
  have hcall := pack_callValues h.encodable fun n hn =>
    byteLength_le_iff.mpr (h.numbers n (by simp at hn ⊢; tauto))
  have hv := pack_scalar (byteLength_le_iff.mpr (h.numbers t.v (by simp)))
  refine packItems_eq (List.rel_append hcall ?_)
  exact .cons hv (.cons (pack_padded t.r) (.cons (pack_padded t.s) .nil))

/-- `__str__`, once the signature's numbers are bytes. -/
theorem str_eq (h : t.InRange) : t.trx.str = (do
    let packed ← packPayload (encodeAll t.paddedItems)
    return hex packed) := by
  have hr : signatureBytes t.trx.r = .ok (.bytes (beBytes 32 t.r)) :=
    signatureBytes_scalar h.r_pos h.r_lt
  have hs : signatureBytes t.trx.s = .ok (.bytes (beBytes 32 t.s)) :=
    signatureBytes_scalar h.s_pos h.s_lt
  rw [Trx.str, hr, ok_bind, hs, ok_bind]
  show (pack (.tuple (t.callValues ++ [ofInt (scalarInt t.v), .bytes (beBytes 32 t.r),
    .bytes (beBytes 32 t.s)])) >>= fun packed => pure (hex packed)) = _
  rw [pack, if_neg (by simp), packItems_padded h, ok_bind]

theorem length_items_lt (h : t.InRange) (hshort : t.r < 2 ^ 248 ∨ t.s < 2 ^ 248) :
    (encodeAll (t.callItems ++ [.scalar t.v, .scalar t.r, .scalar t.s])).length <
      (encodeAll t.paddedItems).length := by
  have hr := length_encode_scalar_le h.r_lt
  have hs := length_encode_scalar_le h.s_lt
  simp only [SignedTx.paddedItems, encodeAll_append, encodeAll, List.length_append,
    length_encode_padded]
  rcases hshort with hshort | hshort
  · have := length_encode_scalar_lt hshort
    omega
  · have := length_encode_scalar_lt hshort
    omega

/-- A zero byte in front makes the text longer than what was read. -/
theorem str_ne_of_short (h : t.InRange) (hshort : t.r < 2 ^ 248 ∨ t.s < 2 ^ 248) :
    t.trx.str ≠ .ok (hex t.item.encode) := by
  intro hstr
  rw [str_eq h] at hstr
  obtain ⟨packed, hpacked, hhex⟩ := bind_eq_ok.mp hstr
  have heq : packed = t.item.encode := hex_inj (pure_eq_ok.mp hhex)
  have hlength := length_packPayload hpacked
  have hlt := length_items_lt h hshort
  have hmono := length_header_mono 0xC0 hlt.le
  rw [heq, SignedTx.item, length_encode_list] at hlength
  omega

theorem str_of_full (h : t.InRange) (hr : 2 ^ 248 ≤ t.r) (hs : 2 ^ 248 ≤ t.s) :
    t.trx.str = .ok (hex t.item.encode) := by
  have hitems : t.item = .list t.paddedItems := by
    rw [SignedTx.item, SignedTx.paddedItems, padded_eq h.r_lt hr, padded_eq h.s_lt hs]
  have hlt : (encodeAll t.paddedItems).length < 2 ^ 64 := by
    have hencodable := h.encodable
    rw [hitems, Item.Encodable] at hencodable
    exact hencodable.2
  rw [str_eq h, packPayload_eq hlt, ok_bind, hitems, Item.encode]
  rfl

/-- **Written back.** A transaction is written back as it was read exactly if neither
number of its signature has a zero byte in front of its 32. -/
theorem str_iff (text : PyVal → String) (t : SignedTx) (h : t.InRange) :
    ∃ trx, fromString text t.item.encode = .ok trx ∧
      (trx.str = .ok (hex t.item.encode) ↔ 2 ^ 248 ≤ t.r ∧ 2 ^ 248 ≤ t.s) := by
  refine ⟨t.trx, fromString_encode text h.encodable, ?_, fun hfull => str_of_full h hfull.1 hfull.2⟩
  intro hstr
  by_contra hshort
  exact str_ne_of_short h (by omega) hstr

-- ---------------------------------------------------------------------------
-- Two signatures
-- ---------------------------------------------------------------------------

theorem transferTx_inRange : (transferTx (.eip155 111)).InRange where
  toWellFormed := transferTx_wellFormed _ (.inl rfl)
  r_lt := by
    show 2 ^ 250 + 1 < 2 ^ 256
    omega
  s_lt := by
    show 2 ^ 249 + 7 < 2 ^ 256
    omega
  numbers := by decide

theorem str_iff_transfer : ∃ trx,
    fromString (fun _ => "") (transferTx (.eip155 111)).item.encode = .ok trx ∧
      trx.str = .ok (hex (transferTx (.eip155 111)).item.encode) := by
  obtain ⟨trx, htrx, hstr⟩ := str_iff (fun _ => "") _ transferTx_inRange
  refine ⟨trx, htrx, hstr.mpr ⟨?_, ?_⟩⟩
  · show 2 ^ 248 ≤ 2 ^ 250 + 1
    omega
  · show 2 ^ 248 ≤ 2 ^ 249 + 7
    omega

/-- The transfer with a signature of 31 significant bytes. -/
def shortTx : SignedTx :=
  { transferTx (.eip155 111) with r := 2 ^ 247 + 1 }

theorem shortTx_inRange : shortTx.InRange where
  encodable := by
    simp only [SignedTx.item, SignedTx.callItems, List.cons_append, List.nil_append, Item.scalar,
      Item.Encodable, AllEncodable]
    decide +kernel
  chainId_pos := transferTx_inRange.chainId_pos
  r_pos := by
    show 1 ≤ 2 ^ 247 + 1
    omega
  s_pos := transferTx_inRange.s_pos
  r_lt := by
    show 2 ^ 247 + 1 < 2 ^ 256
    omega
  s_lt := transferTx_inRange.s_lt
  numbers := transferTx_inRange.numbers

theorem str_padded_differs : shortTx.InRange ∧
    ¬ ∃ trx, fromString (fun _ => "") shortTx.item.encode = .ok trx ∧
      trx.str = .ok (hex shortTx.item.encode) := by
  refine ⟨shortTx_inRange, ?_⟩
  rintro ⟨trx, htrx, hstr⟩
  rw [fromString_encode _ shortTx_inRange.encodable, Except.ok.injEq] at htrx
  rw [← htrx] at hstr
  refine str_ne_of_short shortTx_inRange (.inl ?_) hstr
  show 2 ^ 247 + 1 < 2 ^ 248
  omega

end NeonTests.Transaction
