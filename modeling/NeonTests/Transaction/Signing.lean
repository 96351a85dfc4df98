import NeonTests.Transaction.Fields

/-!
# Legacy transactions — the message that was signed

`get_msg`, `hash` and `sender` on what `from_string` made of a signed transaction.

* `getMsg_eip155` — which values `get_msg` packs for a replay-protected transaction;
* `getMsg_homestead` — without a chain id there is none to pack: `chain_id()` is -4;
* `getMsg_signed_iff` — exactly when the message is the one that was signed.
-/

namespace NeonTests.Transaction

open Endian Fallible Python Rlp RlpItem

variable {t : SignedTx} {chainId : Nat}

-- ---------------------------------------------------------------------------
-- The chain id
-- ---------------------------------------------------------------------------

/-- `v` is never decoded to `None`. -/
theorem number_v (t : SignedTx) : number t.trx.v = .ok (t.v : Int) := by
  have hpos : 1 ≤ t.v := by
    unfold SignedTx.v
    split <;> omega
  show number (scalarInt t.v) = _
  rw [scalarInt_pos hpos]
  rfl

theorem chainId_eip155 (h : t.scheme = .eip155 chainId) : t.trx.chainId = .ok (chainId : Int) := by
  have hv : t.v = 2 * chainId + 35 + t.yParity.toNat := by rw [SignedTx.v, h]
  have hparity := t.yParity.toNat_le
  rw [Trx.chainId, number_v, ok_bind, pure_eq_ok]
  omega

theorem chainId_homestead (h : t.scheme = .homestead) : t.trx.chainId = .ok (-4) := by
  have hv : t.v = 27 + t.yParity.toNat := by rw [SignedTx.v, h]
  have hparity := t.yParity.toNat_le
  rw [Trx.chainId, number_v, ok_bind, pure_eq_ok]
  omega

-- ---------------------------------------------------------------------------
-- get_msg
-- ---------------------------------------------------------------------------

theorem getMsg_eip155 (h : t.scheme = .eip155 chainId) (hpos : 1 ≤ chainId) :
    t.trx.getMsg none =
      pack (.tuple (t.callValues ++ [ofInt (scalarInt chainId), .none, .none])) := by
  have hid : t.trx.chainIdOr none = .ok (chainId : Int) := chainId_eip155 h
  rw [Trx.getMsg, hid, ok_bind, scalarInt_pos hpos]
  rfl

theorem packItems_overflow {vs : List PyVal} {v : PyVal} (rest : List PyVal)
    (h : ∀ v ∈ vs, pack v = .error .overflowError ∨ ∃ bs, pack v = .ok bs)
    (hv : pack v = .error .overflowError) :
    packItems (vs ++ v :: rest) = .error .overflowError := by
  induction vs with
  | nil =>
    rw [List.nil_append, packItems, hv]
    rfl
  | cons x vs ih =>
    rw [List.cons_append, packItems]
    rcases h x List.mem_cons_self with herr | ⟨bs, hbs⟩
    · rw [herr]
      rfl
    · rw [hbs, ok_bind, ih fun y hy => h y (List.mem_cons_of_mem _ hy)]
      rfl

theorem getMsg_homestead (hencodable : t.item.Encodable) (h : t.scheme = .homestead) :
    t.trx.getMsg none = .error .overflowError := by
  have hid : t.trx.chainIdOr none = .ok (-4) := chainId_homestead h
  have hpack : pack (.int (-4)) = .error .overflowError := rfl
  rw [Trx.getMsg, hid, ok_bind]
  show pack (.tuple (t.callValues ++ .int (-4) :: [.none, .none])) = _
  rw [pack, if_neg (by simp), packItems_overflow _ (pack_callValues_cases hencodable) hpack]
  rfl

/-- What a signature is made for is no longer than the signed transaction. -/
theorem length_signed_lt (hencodable : t.item.Encodable) (h : t.scheme = .eip155 chainId) :
    (encodeAll (t.callItems ++ [.scalar chainId, .string [], .string []])).length < 2 ^ 64 := by
  have hv : t.v = 2 * chainId + 35 + t.yParity.toNat := by rw [SignedTx.v, h]
  have hlt : (encodeAll (t.callItems ++ [.scalar t.v, .scalar t.r, .scalar t.s])).length < 2 ^ 64 := by
    rw [SignedTx.item, Item.Encodable] at hencodable
    exact hencodable.2
  have hid : (Item.scalar chainId).encode.length ≤ (Item.scalar t.v).encode.length :=
    length_encode_scalar_mono (by omega)
  have hr := length_encode_pos (.scalar t.r)
  have hs := length_encode_pos (.scalar t.s)
  have hempty : (Item.string []).encode.length = 1 := rfl
  simp only [encodeAll_append, encodeAll, List.length_append, List.append_nil, hempty] at hlt ⊢
  omega

/-- The signing scheme `get_msg` follows, and the numbers `pack` encodes rightly. -/
def SignedTx.Reconstructible (t : SignedTx) : Prop :=
  ∃ chainId, t.scheme = .eip155 chainId ∧
    ∀ n ∈ [t.nonce, t.gasPrice, t.gasLimit, t.value, chainId], n < 256 ^ 55

theorem getMsg_of_reconstructible (hwell : t.WellFormed) (h : t.Reconstructible) :
    t.trx.getMsg none = .ok t.signingItem.encode := by
  obtain ⟨chainId, hscheme, hnumbers⟩ := h
  have hcall := pack_callValues hwell.encodable fun n hn =>
    byteLength_le_iff.mpr (hnumbers n (by simp at hn ⊢; tauto))
  have hid := pack_scalar (byteLength_le_iff.mpr (hnumbers chainId (by simp)))
  have hsigning : t.signingItem = .list (t.callItems ++ [.scalar chainId, .string [], .string []]) := by
    rw [SignedTx.signingItem, hscheme]
  rw [getMsg_eip155 hscheme (hwell.chainId_pos chainId hscheme), hsigning]
  refine pack_tuple ?_ (by simp [SignedTx.callValues]) (length_signed_lt hwell.encodable hscheme)
  exact List.rel_append hcall (.cons hid (.cons rfl (.cons rfl .nil)))

/-- A number of more than 55 bytes is packed short, so the message is another one. -/
theorem getMsg_ne_of_wide (hwell : t.WellFormed) (hscheme : t.scheme = .eip155 chainId)
    (h : ∃ n ∈ [t.nonce, t.gasPrice, t.gasLimit, t.value, chainId], 256 ^ 55 ≤ n) :
    t.trx.getMsg none ≠ .ok t.signingItem.encode := by
  have hsigning : t.signingItem = .list (t.callItems ++ [.scalar chainId, .string [], .string []]) := by
    rw [SignedTx.signingItem, hscheme]
  rw [getMsg_eip155 hscheme (hwell.chainId_pos chainId hscheme), hsigning]
  refine pack_tuple_ne ?_ ?_
  · exact List.rel_append (packedWithin_callValues hwell.encodable)
      (.cons (packedWithin_scalar _) (.cons (packedWithin_of_eq rfl)
        (.cons (packedWithin_of_eq rfl) .nil)))
  · obtain ⟨n, hn, hwide⟩ := h
    have hbytes : 55 < byteLength n := by
      by_contra hle
      have := byteLength_le_iff.mp (Nat.le_of_not_lt hle)
      omega
    refine ⟨(ofInt (scalarInt n), .scalar n), ?_, packedShort_scalar hbytes⟩
    simp only [List.mem_cons, List.not_mem_nil, or_false] at hn
    rcases hn with rfl | rfl | rfl | rfl | rfl <;> simp [SignedTx.callValues, SignedTx.callItems]

-- ---------------------------------------------------------------------------
-- The signer
-- ---------------------------------------------------------------------------

/-- The parity `sender` reads off `v` is the signature's. -/
theorem parity_eip155 (h : t.scheme = .eip155 chainId) :
    (if (t.v : Int) % 2 = 0 then 1 else 0 : Int) = t.yParity.toInt := by
  have hv : t.v = 2 * chainId + 35 + t.yParity.toNat := by rw [SignedTx.v, h]
  cases hparity : t.yParity with
  | true =>
    rw [hparity, Bool.toNat_true] at hv
    exact if_pos (by omega)
  | false =>
    rw [hparity, Bool.toNat_false] at hv
    exact if_neg (by omega)

theorem sender_of_reconstructible (crypto : Crypto) (hwell : t.WellFormed)
    (h : t.Reconstructible) {sig : crypto.Signature} {pub : crypto.PublicKey}
    (hsig : crypto.signature t.yParity.toInt (some t.r) (some t.s) = .ok sig)
    (hpub : crypto.recoverPublicKeyFromMsgHash sig (crypto.keccak256 t.signingItem.encode) =
      .ok pub) :
    t.trx.sender crypto = .ok (hex (crypto.toCanonicalAddress pub)) := by
  have hmsg := getMsg_of_reconstructible hwell h
  obtain ⟨chainId, hscheme, _⟩ := h
  have hrs : t.trx.r = some (t.r : Int) ∧ t.trx.s = some (t.s : Int) :=
    ⟨scalarInt_pos hwell.r_pos, scalarInt_pos hwell.s_pos⟩
  rw [Trx.sender, Trx.hash, hmsg, ok_bind, pure_bind, number_v, ok_bind, hrs.1, hrs.2,
    parity_eip155 hscheme, hsig, ok_bind, hpub, ok_bind]
  rfl

/-- `get_msg` is the signed message exactly for the reconstructible transactions. -/
theorem getMsg_iff (hwell : t.WellFormed) :
    t.trx.getMsg none = .ok t.signingItem.encode ↔ t.Reconstructible := by
  refine ⟨fun h => ?_, getMsg_of_reconstructible hwell⟩
  cases hscheme : t.scheme with
  | homestead =>
    rw [getMsg_homestead hwell.encodable hscheme] at h
    cases h
  | eip155 chainId =>
    refine ⟨chainId, hscheme, ?_⟩
    intro n hn
    by_contra hwide
    exact getMsg_ne_of_wide hwell hscheme ⟨n, hn, Nat.le_of_not_lt hwide⟩ h

/-- **The signed message.** What `from_string` makes of a signed transaction gives the
message that was signed, its hash and the signer exactly if the signature is replay-
protected and no number has more than 55 bytes. A signature without chain id raises. -/
theorem getMsg_signed_iff (text : PyVal → String) (t : SignedTx) (hwell : t.WellFormed) :
    ∃ trx, fromString text t.item.encode = .ok trx ∧
      (trx.getMsg none = .ok t.signingItem.encode ↔ t.Reconstructible) ∧
      ∀ crypto : Crypto,
        (t.Reconstructible →
          trx.hash crypto none = .ok (crypto.keccak256 t.signingItem.encode) ∧
          ∀ sig pub, crypto.signature t.yParity.toInt (some t.r) (some t.s) = .ok sig →
            crypto.recoverPublicKeyFromMsgHash sig (crypto.keccak256 t.signingItem.encode) =
              .ok pub → trx.sender crypto = .ok (hex (crypto.toCanonicalAddress pub))) ∧
        (t.scheme = .homestead →
          trx.chainId = .ok (-4) ∧ trx.getMsg none = .error .overflowError ∧
          trx.hash crypto none = .error .overflowError ∧
          trx.sender crypto = .error .overflowError) := by
  refine ⟨t.trx, fromString_encode text hwell.encodable, getMsg_iff hwell, ?_⟩
  intro crypto
  constructor
  · intro h
    refine ⟨?_, fun sig pub hsig hpub => sender_of_reconstructible crypto hwell h hsig hpub⟩
    rw [Trx.hash, getMsg_of_reconstructible hwell h]
    rfl
  · intro h
    have hmsg := getMsg_homestead hwell.encodable h
    have hhash : t.trx.hash crypto none = .error .overflowError := by
      rw [Trx.hash, hmsg]
      rfl
    refine ⟨chainId_homestead h, hmsg, hhash, ?_⟩
    rw [Trx.sender, hhash]
    rfl

-- ---------------------------------------------------------------------------
-- Two transfers
-- ---------------------------------------------------------------------------

/-- A transfer of 10, signed by one scheme or the other; the numbers of the signature
stand for any. -/
def transferTx (scheme : Scheme) : SignedTx where
  nonce := 0
  gasPrice := 0
  gasLimit := 9999999999
  toAddress := some (.replicate 20 0x11)
  value := 10
  callData := []
  scheme := scheme
  yParity := true
  r := 2 ^ 250 + 1
  s := 2 ^ 249 + 7

theorem transferTx_wellFormed (scheme : Scheme)
    (h : scheme = .eip155 111 ∨ scheme = .homestead) : (transferTx scheme).WellFormed where
  encodable := by
    rcases h with rfl | rfl <;>
    · simp only [SignedTx.item, SignedTx.callItems, List.cons_append, List.nil_append, Item.scalar,
        Item.Encodable, AllEncodable]
      decide +kernel
  chainId_pos chainId hscheme := by
    have hscheme : scheme = .eip155 chainId := hscheme
    rcases h with rfl | rfl
    · cases hscheme
      decide
    · cases hscheme
  r_pos := by
    show 1 ≤ 2 ^ 250 + 1
    omega
  s_pos := by
    show 1 ≤ 2 ^ 249 + 7
    omega

theorem getMsg_signed_iff_transfer : ∃ trx,
    fromString (fun _ => "") (transferTx (.eip155 111)).item.encode = .ok trx ∧
      trx.getMsg none = .ok ([0xE2, 0x80, 0x80, 0x85, 0x02, 0x54, 0x0b, 0xe3, 0xff, 0x94] ++
        List.replicate 20 0x11 ++ [0x0a, 0x80, 0x6f, 0x80, 0x80]) := by
  obtain ⟨trx, htrx, hmsg, _⟩ := getMsg_signed_iff (fun _ => "") _
    (transferTx_wellFormed (.eip155 111) (.inl rfl))
  have hsmall : (transferTx (.eip155 111)).Reconstructible := ⟨111, rfl, by decide⟩
  exact ⟨trx, htrx, hmsg.mpr hsmall⟩

/-- Signed without chain id, `v` is 28 and there is no message. -/
theorem getMsg_homestead_raises : (transferTx .homestead).WellFormed ∧
    ¬ ∃ trx, fromString (fun _ => "") (transferTx .homestead).item.encode = .ok trx ∧
      trx.getMsg none = .ok (transferTx .homestead).signingItem.encode := by
  have hwell := transferTx_wellFormed .homestead (.inr rfl)
  refine ⟨hwell, ?_⟩
  rintro ⟨trx, htrx, hmsg⟩
  rw [fromString_encode _ hwell.encodable, Except.ok.injEq] at htrx
  rw [← htrx, getMsg_homestead hwell.encodable rfl] at hmsg
  cases hmsg

end NeonTests.Transaction
