import NeonTests.Transaction.Definitions

/-!
# Legacy transactions — decoded and packed again

What becomes of the fields of a signed transaction between `from_string` and `pack`.

* `fromString_encode` — the attributes `from_string` sets;
* `pack_scalar` — a number of at most 55 bytes is packed as it was encoded;
* `pack_scalar_le` — a longer one is not: `pack` has one prefix byte for it, or none.
-/

namespace NeonTests.Transaction

open Endian Fallible Python Rlp RlpItem

-- ---------------------------------------------------------------------------
-- Numbers
-- ---------------------------------------------------------------------------

/-- The attribute of a decoded number: zero is decoded to `None`. -/
def scalarInt (n : Nat) : Option Int := if n = 0 then none else some n

theorem scalarInt_pos {n : Nat} (h : 1 ≤ n) : scalarInt n = some (n : Int) :=
  if_neg (by omega)

theorem getInt_scalar (text : PyVal → String) (n : Nat) :
    getInt text (value (.scalar n)) = .ok (scalarInt n) := by
  rcases Nat.eq_zero_or_pos n with rfl | hpos
  · rfl
  · have hne : minBytes n ≠ [] := by
      rw [← List.length_pos_iff, length_minBytes]
      exact byteLength_pos hpos
    rw [scalarInt_pos hpos, Item.scalar, value]
    by_cases hbyte : (minBytes n).length = 1 ∧ beNat (minBytes n) < 0x80
    · rw [stringValue, if_pos hbyte, beNat_minBytes]
      rfl
    · rw [stringValue_bytes hne hbyte, getInt, beNat_minBytes]

/-- The numbers for which `pack` writes the prefix of a string. -/
theorem pack_scalar {n : Nat} (h : byteLength n ≤ 55) :
    pack (ofInt (scalarInt n)) = .ok (Item.scalar n).encode := by
  rcases Nat.eq_zero_or_pos n with rfl | hpos
  · rfl
  · rw [scalarInt_pos hpos, ofInt, pack]
    rcases Nat.lt_or_ge n 0x80 with hsmall | hbig
    · rw [packInt_small hsmall, encode_scalar_byte hpos hsmall]
    · rw [packInt_big hbig (by omega), encode_scalar_big hbig, header_short h, Nat.add_comm]
      rfl

theorem big_of_wide {n : Nat} (h : 55 < byteLength n) : 0x80 ≤ n := by
  by_contra hsmall
  have : byteLength n ≤ 1 := byteLength_le_iff.mpr (by omega)
  omega

/-- `pack` raises for a number of 128 bytes or more: its length does not fit. -/
theorem packInt_wide {n : Nat} (h : 127 < byteLength n) :
    packInt n = .error .overflowError := by
  have hbig : 0x80 ≤ n := big_of_wide (by omega)
  have hhead : toBytesBig (((bitLength n + 7) / 8 : Nat) + 0x80) 1 = .error .overflowError := by
    have hwide : 127 < (bitLength n + 7) / 8 := h
    rw [toBytesBig, if_neg]
    omega
  rw [packInt, if_neg (by omega), Int.toNat_natCast]
  simp only [hhead]
  rfl

/-- What `pack` makes of a number is never longer than its encoding, and shorter if the
number has more than 55 bytes. -/
theorem pack_scalar_le (n : Nat) : pack (ofInt (scalarInt n)) = .error .overflowError ∨
    ∃ bs, pack (ofInt (scalarInt n)) = .ok bs ∧ bs.length ≤ (Item.scalar n).encode.length ∧
      (55 < byteLength n → bs.length < (Item.scalar n).encode.length) := by
  rcases Nat.lt_or_ge 55 (byteLength n) with hwide | hfits
  · have hbig := big_of_wide hwide
    rw [scalarInt_pos (by omega), ofInt, pack]
    rcases Nat.lt_or_ge 127 (byteLength n) with hover | hhead
    · exact .inl (packInt_wide hover)
    · refine .inr ⟨_, packInt_big hbig hhead, ?_⟩
      have hpos : 0 < byteLength (byteLength n) := byteLength_pos (by omega)
      rw [encode_scalar_big hbig, header_long hwide]
      simp only [List.length_cons, List.length_append, length_minBytes]
      omega
  · exact .inr ⟨_, pack_scalar hfits, le_rfl, fun hwide => by omega⟩

-- ---------------------------------------------------------------------------
-- Fields in a row
-- ---------------------------------------------------------------------------

/-- Values packed as the items. -/
theorem packItems_eq {vs : List PyVal} {items : List Item}
    (h : List.Forall₂ (fun v item => pack v = .ok item.encode) vs items) :
    packItems vs = .ok (encodeAll items) := by
  induction h with
  | nil => rfl
  | cons hv _ ih =>
    rw [packItems, hv, ok_bind, ih, ok_bind, encodeAll]
    rfl

/-- `pack` of a tuple whose values are packed as the items. -/
theorem pack_tuple {vs : List PyVal} {items : List Item}
    (h : List.Forall₂ (fun v item => pack v = .ok item.encode) vs items) (hne : vs ≠ [])
    (hlength : (encodeAll items).length < 2 ^ 64) :
    pack (.tuple vs) = .ok (Item.list items).encode := by
  rw [pack, Item.encode]
  exact pack_sequence hne (packItems_eq h) hlength

/-- `v` is not packed into more bytes than the encoding of `item` has. -/
def PackedWithin (v : PyVal) (item : Item) : Prop :=
  ∀ bs, pack v = .ok bs → bs.length ≤ item.encode.length

def PackedShort (v : PyVal) (item : Item) : Prop :=
  ∀ bs, pack v = .ok bs → bs.length < item.encode.length

theorem packedWithin_of_eq {v : PyVal} {item : Item} (h : pack v = .ok item.encode) :
    PackedWithin v item := by
  intro bs hbs
  rw [h, Except.ok.injEq] at hbs
  rw [hbs]

theorem packedWithin_scalar (n : Nat) : PackedWithin (ofInt (scalarInt n)) (.scalar n) := by
  intro bs hbs
  rcases pack_scalar_le n with herr | ⟨bs', hbs', hle, _⟩
  · rw [herr] at hbs
    cases hbs
  · rw [hbs', Except.ok.injEq] at hbs
    rwa [← hbs]

theorem packedShort_scalar {n : Nat} (h : 55 < byteLength n) :
    PackedShort (ofInt (scalarInt n)) (.scalar n) := by
  intro bs hbs
  rcases pack_scalar_le n with herr | ⟨bs', hbs', _, hlt⟩
  · rw [herr] at hbs
    cases hbs
  · rw [hbs', Except.ok.injEq] at hbs
    rw [← hbs]
    exact hlt h

/-- A field that is packed short makes the whole short. -/
theorem packItems_short {vs : List PyVal} {items : List Item} {body : Bytes}
    (h : List.Forall₂ PackedWithin vs items) (hbody : packItems vs = .ok body) :
    body.length ≤ (encodeAll items).length ∧
      ((∃ x ∈ vs.zip items, PackedShort x.1 x.2) → body.length < (encodeAll items).length) := by
  induction h generalizing body with
  | nil =>
    cases hbody
    exact ⟨le_rfl, fun ⟨_, hx, _⟩ => nomatch hx⟩
  | cons hv _ ih =>
    rw [packItems] at hbody
    obtain ⟨bs, hbs, hbody⟩ := bind_eq_ok.mp hbody
    obtain ⟨rest, hrest, hbody⟩ := bind_eq_ok.mp hbody
    cases hbody
    obtain ⟨hle, hlt⟩ := ih hrest
    have hhead := hv bs hbs
    rw [encodeAll, List.length_append, List.length_append]
    refine ⟨Nat.add_le_add hhead hle, ?_⟩
    rintro ⟨x, hx, hshort⟩
    rcases List.mem_cons.mp hx with rfl | hx
    · exact Nat.add_lt_add_of_lt_of_le (hshort bs hbs) hle
    · exact Nat.add_lt_add_of_le_of_lt hhead (hlt ⟨x, hx, hshort⟩)

theorem length_packPayload {body out : Bytes} (h : packPayload body = .ok out) :
    out.length = (header 0xC0 body.length).length + body.length := by
  rw [length_header]
  unfold packPayload at h
  split at h
  · next hshort =>
    obtain ⟨head, hhead, h⟩ := bind_eq_ok.mp h
    cases h
    rw [if_pos hshort, List.length_append, length_toBytesBig hhead]
  · next hlong =>
    obtain ⟨head, hhead, h⟩ := bind_eq_ok.mp h
    obtain ⟨len, hlen, h⟩ := bind_eq_ok.mp h
    cases h
    rw [if_neg hlong, List.length_append, List.length_append, length_toBytesBig hhead,
      length_toBytesBig hlen, Nat.add_comm 1]
    rfl

/-- A tuple packed short is not the list of the items. -/
theorem pack_tuple_ne {vs : List PyVal} {items : List Item}
    (h : List.Forall₂ PackedWithin vs items) (hshort : ∃ x ∈ vs.zip items, PackedShort x.1 x.2) :
    pack (.tuple vs) ≠ .ok (Item.list items).encode := by
  intro hpack
  have hne : vs.length ≠ 0 := by
    intro hzero
    obtain rfl := List.length_eq_zero_iff.mp hzero
    obtain ⟨x, hx, _⟩ := hshort
    cases hx
  rw [pack, if_neg hne] at hpack
  obtain ⟨body, hbody, hout⟩ := bind_eq_ok.mp hpack
  have hlt := (packItems_short h hbody).2 hshort
  have hlength := length_packPayload hout
  have hmono := length_header_mono 0xC0 hlt.le
  rw [length_encode_list] at hlength
  omega

-- ---------------------------------------------------------------------------
-- from_string
-- ---------------------------------------------------------------------------

/-- The object `from_string` makes of a signed transaction. -/
def SignedTx.trx (t : SignedTx) : Trx where
  nonce := scalarInt t.nonce
  gasPrice := scalarInt t.gasPrice
  gasLimit := scalarInt t.gasLimit
  toAddress := stringValue t.toBytes
  value := scalarInt t.value
  callData := stringValue t.callData
  v := scalarInt t.v
  r := scalarInt t.r
  s := scalarInt t.s

theorem fromString_encode (text : PyVal → String) {t : SignedTx} (h : t.item.Encodable) :
    fromString text t.item.encode = .ok t.trx := by
  have hunpack := unpack_encode h []
  rw [List.append_nil] at hunpack
  rw [fromString, hunpack, ok_bind]
  show (do
    let nonce ← getInt text (value (.scalar t.nonce))
    let gasPrice ← getInt text (value (.scalar t.gasPrice))
    let gasLimit ← getInt text (value (.scalar t.gasLimit))
    let amount ← getInt text (value (.scalar t.value))
    let v ← getInt text (value (.scalar t.v))
    let r ← getInt text (value (.scalar t.r))
    let s ← getInt text (value (.scalar t.s))
    return (⟨nonce, gasPrice, gasLimit, stringValue t.toBytes, amount, stringValue t.callData,
      v, r, s⟩ : Trx) : Except PyError Trx) = _
  simp only [getInt_scalar, ok_bind]
  rfl

/-- The attributes of the call, as they are packed. -/
def SignedTx.callValues (t : SignedTx) : List PyVal :=
  [ofInt (scalarInt t.nonce), ofInt (scalarInt t.gasPrice), ofInt (scalarInt t.gasLimit),
    stringValue t.toBytes, ofInt (scalarInt t.value), stringValue t.callData]

theorem toBytes_length_le (t : SignedTx) : t.toBytes.length ≤ 20 := by
  unfold SignedTx.toBytes
  split <;> simp

theorem callData_length_lt {t : SignedTx} (h : t.item.Encodable) : t.callData.length < 2 ^ 64 := by
  simp only [SignedTx.item, SignedTx.callItems, List.cons_append, List.nil_append,
    Item.Encodable, AllEncodable] at h
  exact h.1.2.2.2.2.2.1

theorem pack_string {bytes : Bytes} (h : bytes.length < 2 ^ 64) :
    pack (stringValue bytes) = .ok (Item.string bytes).encode := by
  rw [pack_stringValue bytes h, Item.encode]

variable {t : SignedTx}

/-- The fields of the call are packed as they were encoded. -/
theorem pack_callValues (h : t.item.Encodable)
    (hnumbers : ∀ n ∈ [t.nonce, t.gasPrice, t.gasLimit, t.value], byteLength n ≤ 55) :
    List.Forall₂ (fun v item => pack v = .ok item.encode) t.callValues t.callItems := by
  have hto := toBytes_length_le t
  refine .cons (pack_scalar (hnumbers _ (by simp))) (.cons (pack_scalar (hnumbers _ (by simp)))
    (.cons (pack_scalar (hnumbers _ (by simp))) (.cons (pack_string (by omega)) (.cons
      (pack_scalar (hnumbers _ (by simp))) (.cons (pack_string (callData_length_lt h)) .nil)))))

theorem packedWithin_callValues (h : t.item.Encodable) :
    List.Forall₂ PackedWithin t.callValues t.callItems := by
  have hto := toBytes_length_le t
  exact .cons (packedWithin_scalar _) (.cons (packedWithin_scalar _) (.cons
    (packedWithin_scalar _) (.cons (packedWithin_of_eq (pack_string (by omega))) (.cons
      (packedWithin_scalar _) (.cons (packedWithin_of_eq (pack_string (callData_length_lt h)))
        .nil)))))

/-- A field of the call is packed, or its length does not fit the prefix byte. -/
theorem pack_callValues_cases (h : t.item.Encodable) : ∀ v ∈ t.callValues,
    pack v = .error .overflowError ∨ ∃ bs, pack v = .ok bs := by
  have hscalar (n : Nat) : pack (ofInt (scalarInt n)) = .error .overflowError ∨
      ∃ bs, pack (ofInt (scalarInt n)) = .ok bs :=
    (pack_scalar_le n).imp_right fun ⟨bs, hbs, _⟩ => ⟨bs, hbs⟩
  have hstring (bytes : Bytes) (hlt : bytes.length < 2 ^ 64) :
      pack (stringValue bytes) = .error .overflowError ∨
        ∃ bs, pack (stringValue bytes) = .ok bs := .inr ⟨_, pack_string hlt⟩
  have hto := hstring t.toBytes (lt_of_le_of_lt (toBytes_length_le t) (by decide))
  have hdata := hstring t.callData (callData_length_lt h)
  simpa [SignedTx.callValues, hscalar] using ⟨hto, hdata⟩

end NeonTests.Transaction
