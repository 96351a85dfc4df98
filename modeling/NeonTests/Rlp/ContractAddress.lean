import NeonTests.Rlp.YellowPaper

/-!
# RLP codec — the address of a new contract

`create_contract_address` of the tests' `ethereum.py` hashes the packed list of the sender and its
nonce, which is `None` if it is zero.

* `encode_inj` — items with the same encoding are the same.
* `createContractAddress_spec` — what is hashed is the format's encoding of the sender and the
  nonce, no two of them have the same, and the address is the end of the digest.
-/

namespace NeonTests.Rlp

open Endian Fallible Python RlpItem

/-! ## The source -/

structure Contract (κ : Type) where
  ethAddress : Bytes
  solanaAddress : κ
  neonAddress : κ

/-- What is asked of the EVM loader; `κ` are public keys. -/
structure AddressLoader (κ : Type) where
  getNeonNonce : Bytes → Except PyError Nat
  ether2program : Bytes → Except PyError (String × Nat)
  ether2balance : Bytes → Except PyError κ
  /-- `Pubkey.from_string` -/
  pubkeyFromString : String → Except PyError κ

/-- `user_nonce or None` -/
def nonceOrNone (userNonce : Nat) : PyVal := if userNonce = 0 then .none else .int userNonce

/-- `pack([user.eth_address, user_nonce or None])` -/
def preimage (ethAddress : Bytes) (userNonce : Nat) : Except PyError Bytes :=
  pack (.list [.bytes ethAddress, nonceOrNone userNonce])

/-- `digest[-20:]` -/
def lastTwenty (digest : Bytes) : Bytes := digest.drop (digest.length - 20)

/-- The accounts of the contract. -/
def AddressLoader.contract {κ : Type} (evmLoader : AddressLoader κ) (contractEthAddress : Bytes) :
    Except PyError (Contract κ) := do
  let (contractSolanaAddress, _) ← evmLoader.ether2program contractEthAddress
  let contractNeonAddress ← evmLoader.ether2balance contractEthAddress
  let solanaAddress ← evmLoader.pubkeyFromString contractSolanaAddress
  pure ⟨contractEthAddress, solanaAddress, contractNeonAddress⟩

/-- `create_contract_address`, of the address of the user. -/
def createContractAddress {κ : Type} (keccak : Bytes → Bytes) (evmLoader : AddressLoader κ)
    (ethAddress : Bytes) : Except PyError (Contract κ) := do
  let userNonce ← evmLoader.getNeonNonce ethAddress
  let packed ← preimage ethAddress userNonce
  evmLoader.contract (lastTwenty (keccak packed))

/-! ## Items are told apart -/

mutual

/-- The item that was decoded, read off its value. -/
def itemOf : PyVal → Item
  | .int n => .string [UInt8.ofNat n.toNat]
  | .bytes b => .string b
  | .list xs => .list (itemsOf xs)
  | .tuple xs => .list (itemsOf xs)
  | .none => .string []
  | .str _ => .string []
  | .other _ => .string []

def itemsOf : List PyVal → List Item
  | [] => []
  | x :: xs => itemOf x :: itemsOf xs

end

theorem itemOf_stringValue (bytes : Bytes) : itemOf (stringValue bytes) = .string bytes := by
  refine string_cases (P := fun bytes => itemOf (stringValue bytes) = .string bytes) ?_ ?_ ?_ bytes
  · rfl
  · intro b hb
    rw [stringValue_byte hb, itemOf, Int.toNat_natCast, UInt8.ofNat_toNat]
  · intro bytes hne hmany
    rw [stringValue_bytes hne hmany, itemOf]

mutual

theorem itemOf_value : ∀ i : Item, itemOf (value i) = i
  | .string bytes => by
    rw [value]
    exact itemOf_stringValue bytes
  | .list is => by
    rw [value]
    split
    · next h =>
      rw [h]
      rfl
    · rw [itemOf, itemsOf_values is]

theorem itemsOf_values : ∀ is : List Item, itemsOf (values is) = is
  | [] => rfl
  | i :: is => by rw [values, itemsOf, itemOf_value i, itemsOf_values is]

end

/-- No two items have the same encoding. -/
theorem encode_inj {a b : Item} (ha : a.Encodable) (hb : b.Encodable)
    (h : a.encode = b.encode) : a = b := by
  have hdecoded := unpack_encode hb []
  rw [← h, unpack_encode ha [], Except.ok.injEq, Prod.mk.injEq] at hdecoded
  rw [← itemOf_value a, hdecoded.1, itemOf_value b]

/-! ## The preimage -/

/-- The list whose hash the address is taken from. -/
def createItem (sender : Bytes) (nonce : Nat) : Item := .list [.string sender, .scalar nonce]

variable {sender sender' : Bytes} {nonce nonce' : Nat}

theorem item_nonceOrNone (nonce : Nat) : item (nonceOrNone nonce) = .scalar nonce := by
  unfold nonceOrNone
  split
  · next h =>
    rw [h]
    rfl
  · rw [item, Int.toNat_natCast]

theorem plain_nonceOrNone (nonce : Nat) : Plain (nonceOrNone nonce) := by
  unfold nonceOrNone
  split
  · trivial
  · next h =>
    rw [Plain]
    exact_mod_cast h

theorem tree_nonceOrNone (h : nonce < 2 ^ 64) : Tree (nonceOrNone nonce) := by
  unfold nonceOrNone
  split
  · trivial
  · rw [Tree]
    omega

theorem encodable_createItem (hsender : sender.length = 20) (hnonce : nonce < 2 ^ 64) :
    (createItem sender nonce).Encodable := by
  have hfirst : (Item.string sender).encode.length = 21 := by
    rw [Item.encode, encodeString_of_not (by omega), hsender, List.length_append, hsender]
    rfl
  have hsecond : (Item.scalar nonce).encode.length ≤ 9 :=
    length_encode_scalar_mono (n := 2 ^ 64 - 1) (by omega)
  have hbytes : byteLength nonce ≤ 8 := byteLength_le_eight hnonce
  rw [createItem, Item.Encodable, AllEncodable, AllEncodable, AllEncodable, Item.Encodable,
    Item.scalar, Item.Encodable, length_minBytes, hsender, encodeAll, encodeAll, encodeAll,
    List.length_append, List.length_append, hfirst, List.length_nil]
  rw [Item.scalar] at hsecond
  exact ⟨⟨by omega, by omega, trivial⟩, by omega⟩

/-- The preimage is the format's encoding. -/
theorem preimage_eq_encode (hsender : sender.length = 20) (hnonce : nonce < 2 ^ 64) :
    preimage sender nonce = .ok (createItem sender nonce).encode := by
  have hitem : item (.list [.bytes sender, nonceOrNone nonce]) = createItem sender nonce := by
    rw [item, items, items, items, item, item_nonceOrNone, createItem]
  rw [preimage, ← hitem]
  refine (pack_iff_plain _ ?_ ?_).mpr ?_
  · rw [Tree, Trees, Trees, Trees, Tree]
    exact ⟨trivial, tree_nonceOrNone hnonce, trivial⟩
  · rw [hitem]
    exact encodable_createItem hsender hnonce
  · rw [Plain, PlainItems, PlainItems, PlainItems, Plain, SingleByte, hsender]
    exact ⟨by simp, plain_nonceOrNone nonce, trivial⟩

theorem createItem_inj (h : createItem sender nonce = createItem sender' nonce') :
    sender = sender' ∧ nonce = nonce' := by
  unfold createItem Item.scalar at h
  injection h with hitems
  injection hitems with hsender hrest
  injection hrest with hnonce _
  injection hsender with hsender
  injection hnonce with hnonce
  exact ⟨hsender, minBytes_injective hnonce⟩

/-- Distinct pairs have distinct preimages. -/
theorem preimage_inj (hsender : sender.length = 20) (hnonce : nonce < 2 ^ 64)
    (hsender' : sender'.length = 20) (hnonce' : nonce' < 2 ^ 64)
    (h : preimage sender nonce = preimage sender' nonce') : sender = sender' ∧ nonce = nonce' := by
  rw [preimage_eq_encode hsender hnonce, preimage_eq_encode hsender' hnonce', Except.ok.injEq] at h
  exact createItem_inj
    (encode_inj (encodable_createItem hsender hnonce) (encodable_createItem hsender' hnonce') h)

/-! ## The address -/

variable {κ : Type} {keccak : Bytes → Bytes} {evmLoader : AddressLoader κ}

theorem createContractAddress_eq (hsender : sender.length = 20) (hnonce : nonce < 2 ^ 64)
    (h : evmLoader.getNeonNonce sender = .ok nonce) :
    createContractAddress keccak evmLoader sender =
      evmLoader.contract (lastTwenty (keccak (createItem sender nonce).encode)) := by
  rw [createContractAddress, h, ok_bind, preimage_eq_encode hsender hnonce, ok_bind]

/-- A loader that answers. -/
theorem contract_of_answers {address : Bytes} {text : String} {bump : Nat} {neonAddress key : κ}
    (hprogram : evmLoader.ether2program address = .ok (text, bump))
    (hbalance : evmLoader.ether2balance address = .ok neonAddress)
    (hkey : evmLoader.pubkeyFromString text = .ok key) :
    evmLoader.contract address = .ok ⟨address, key, neonAddress⟩ := by
  rw [AddressLoader.contract, hprogram, ok_bind]
  dsimp only
  rw [hbalance, ok_bind, hkey]
  rfl

theorem ethAddress_of_contract {address : Bytes} {contract : Contract κ}
    (h : evmLoader.contract address = .ok contract) : contract.ethAddress = address := by
  obtain ⟨⟨solanaAddress, bump⟩, -, h⟩ := bind_eq_ok.mp h
  obtain ⟨neonAddress, -, h⟩ := bind_eq_ok.mp h
  obtain ⟨key, -, h⟩ := bind_eq_ok.mp h
  rw [← pure_eq_ok.mp h]

/-- **The address of a new contract.** What is hashed is the format's encoding of the sender and
the nonce, and of no other sender or nonce; the address is the end of its digest, and where the
loader answers for that address, it is returned with its accounts. -/
theorem createContractAddress_spec (hsender : sender.length = 20) (hnonce : nonce < 2 ^ 64) :
    preimage sender nonce = .ok (createItem sender nonce).encode ∧
    Canonical (createItem sender nonce).encode ∧
    (∀ sender' nonce', sender'.length = 20 → nonce' < 2 ^ 64 →
      preimage sender' nonce' = preimage sender nonce → sender' = sender ∧ nonce' = nonce) ∧
    ∀ {κ : Type} (keccak : Bytes → Bytes) (evmLoader : AddressLoader κ),
      evmLoader.getNeonNonce sender = .ok nonce →
      createContractAddress keccak evmLoader sender =
          evmLoader.contract (lastTwenty (keccak (createItem sender nonce).encode)) ∧
        (∀ contract, createContractAddress keccak evmLoader sender = .ok contract →
          contract.ethAddress = lastTwenty (keccak (createItem sender nonce).encode)) ∧
        ∀ text bump neonAddress key,
          evmLoader.ether2program (lastTwenty (keccak (createItem sender nonce).encode)) =
            .ok (text, bump) →
          evmLoader.ether2balance (lastTwenty (keccak (createItem sender nonce).encode)) =
            .ok neonAddress →
          evmLoader.pubkeyFromString text = .ok key →
          createContractAddress keccak evmLoader sender =
            .ok ⟨lastTwenty (keccak (createItem sender nonce).encode), key, neonAddress⟩ := by
  refine ⟨preimage_eq_encode hsender hnonce, ⟨_, encodable_createItem hsender hnonce, rfl⟩,
    fun _ _ hsender' hnonce' => preimage_inj hsender' hnonce' hsender hnonce, ?_⟩
  intro κ keccak evmLoader h
  have haddress : createContractAddress keccak evmLoader sender =
      evmLoader.contract (lastTwenty (keccak (createItem sender nonce).encode)) :=
    createContractAddress_eq hsender hnonce h
  refine ⟨haddress, fun contract hcontract => ?_, ?_⟩
  · rw [haddress] at hcontract
    exact ethAddress_of_contract hcontract
  · intro text bump neonAddress key hprogram hbalance hkey
    rw [haddress]
    exact contract_of_answers hprogram hbalance hkey

/-- A user whose nonce is 1. -/
def sampleSender : Bytes :=
  [0x6a, 0xc7, 0xea, 0x33, 0xf8, 0x83, 0x1e, 0xa9, 0xdc, 0xc5, 0x33, 0x93, 0xaa, 0xa8, 0x8b,
    0x25, 0xa7, 0x85, 0xdb, 0xf0]

/-- The digest of its preimage. -/
def sampleDigest : Bytes :=
  [0xc7, 0xee, 0x1c, 0x25, 0x1b, 0xbf, 0x50, 0x04, 0xe1, 0x3c, 0x00, 0x98, 0x34, 0x3c, 0x43,
    0xa3, 0x7d, 0x37, 0xdf, 0xf0, 0x8a, 0xe8, 0xc4, 0xa1, 0x15, 0x44, 0xc7, 0x18, 0xab,
    0xb4, 0xfc, 0xf8]

def sampleLoader : AddressLoader Nat where
  getNeonNonce _ := .ok 1
  ether2program _ := .ok ("11111111111111111111111111111111", 255)
  ether2balance _ := .ok 2
  pubkeyFromString _ := .ok 0

theorem createContractAddress_spec_sample :
    preimage sampleSender 1 = .ok ([0xD6, 0x94] ++ sampleSender ++ [0x01]) ∧
      createContractAddress (fun _ => sampleDigest) sampleLoader sampleSender =
        .ok ⟨sampleDigest.drop 12, 0, 2⟩ := by
  have hsender : sampleSender.length = 20 := rfl
  have hnonce : 1 < 2 ^ 64 := by decide
  obtain ⟨hpreimage, -, -, haddress⟩ := createContractAddress_spec hsender hnonce
  obtain ⟨-, -, hreturns⟩ := haddress (fun _ => sampleDigest) sampleLoader rfl
  exact ⟨hpreimage, hreturns _ _ _ _ rfl rfl rfl⟩

end NeonTests.Rlp
