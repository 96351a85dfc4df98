import NeonTests.Lib.Base58
import NeonTests.Lib.Reader
import NeonTests.Solana.Types

/-!
# Serialised instructions — for the call_solana precompile

`serialize_instruction` of `utils/helpers.py` writes the program id, the accounts and
the data of an instruction one behind the other, the last two with their lengths in
front.

* `parseInstruction` — the reader of that format;
* `undoes_serializeInstruction` — it reads one message back, whatever follows;
* `serializeInstruction_decodable` — the format is uniquely decodable.
-/

namespace NeonTests.Solana

open Endian Fallible Python Readers

/-- What the conversion of a key to bytes goes through: the `solders` text of a key and
the `base58` package. -/
structure KeyText where
  str : Pubkey → String
  b58decode : String → Except PyError Bytes

/-- The text of a key is its base 58 encoding, so decoding it gives its bytes. -/
def KeyText.Faithful (keyText : KeyText) : Prop :=
  ∀ key, keyText.b58decode (keyText.str key) = .ok key.bytes.toList

/-- `solana_pubkey_to_bytes32` -/
def solanaPubkeyToBytes32 (keyText : KeyText) (solanaPubkey : Pubkey) : Except PyError Bytes :=
  keyText.b58decode (keyText.str solanaPubkey)

/-- The body of the loop over `instruction.accounts`. -/
def serializeKey (serialized : Bytes) (key : AccountMeta) : Except PyError Bytes := do
  let isSigner ← toBytesLittle key.isSigner.toInt 1
  let isWritable ← toBytesLittle key.isWritable.toInt 1
  return serialized ++ key.pubkey.bytes.toList ++ isSigner ++ isWritable

def serializeInstruction (keyText : KeyText) (programId : Pubkey) (instruction : Instruction) :
    Except PyError Bytes := do
  let programIdBytes ← solanaPubkeyToBytes32 keyText programId
  let count ← toBytesLittle instruction.accounts.length 8
  let serialized ← instruction.accounts.foldlM serializeKey (programIdBytes ++ count)
  let length ← toBytesLittle instruction.data.length 8
  return serialized ++ (length ++ instruction.data)

-- ---------------------------------------------------------------------------
-- Reading it back
-- ---------------------------------------------------------------------------

/-- What of a call of `serialize_instruction` is in its result. -/
structure Message where
  programId : Pubkey
  accounts : List AccountMeta
  data : Bytes
  deriving DecidableEq, Repr

def message (programId : Pubkey) (instruction : Instruction) : Message :=
  ⟨programId, instruction.accounts, instruction.data⟩

def Pubkey.ofBytes (bytes : Bytes) : Pubkey := ⟨.ofFn fun i => bytes.getD i 0⟩

def parsePubkey : Reader UInt8 Pubkey := do
  let bytes ← field 32
  pure (Pubkey.ofBytes bytes)

def parseFlag : Reader UInt8 Bool := do
  let n ← leUint 1
  pure (n ≠ 0)

def parseAccountMeta : Reader UInt8 AccountMeta := do
  let pubkey ← parsePubkey
  let isSigner ← parseFlag
  let isWritable ← parseFlag
  pure ⟨pubkey, isSigner, isWritable⟩

def parseInstruction : Reader UInt8 Message := do
  let programId ← parsePubkey
  let count ← leUint 8
  let accounts ← repeated parseAccountMeta count
  let length ← leUint 8
  let data ← field length
  pure ⟨programId, accounts, data⟩

theorem Pubkey.ofBytes_toList (key : Pubkey) : Pubkey.ofBytes key.bytes.toList = key := by
  obtain ⟨bytes⟩ := key
  refine congrArg Pubkey.mk ?_
  ext i hi
  simp [List.getD_eq_getElem?_getD]

theorem undoes_parsePubkey (key : Pubkey) : Undoes parsePubkey key.bytes.toList key :=
  (undoes_field (by simp)).bind_pure (Pubkey.ofBytes_toList key)

theorem undoes_parseFlag (flag : Bool) : Undoes parseFlag (leBytes 1 flag.toNat) flag := by
  cases flag with
  | true => exact (undoes_leUint (by decide)).bind_pure rfl
  | false => exact (undoes_leUint (by decide)).bind_pure rfl

/-- The bytes of one account. -/
def keyBytes (key : AccountMeta) : Bytes :=
  key.pubkey.bytes.toList ++ leBytes 1 key.isSigner.toNat ++ leBytes 1 key.isWritable.toNat

theorem undoes_parseAccountMeta (key : AccountMeta) :
    Undoes parseAccountMeta (keyBytes key) key := by
  rw [keyBytes, List.append_assoc]
  refine (undoes_parsePubkey key.pubkey).bind ?_
  refine (undoes_parseFlag key.isSigner).bind ?_
  exact (undoes_parseFlag key.isWritable).bind_pure rfl

theorem toBytesLittle_flag (flag : Bool) :
    toBytesLittle flag.toInt 1 = .ok (leBytes 1 flag.toNat) := by
  cases flag <;> rfl

/-- The loop appends the accounts in order. -/
theorem foldlM_serializeKey (accounts : List AccountMeta) (serialized : Bytes) :
    accounts.foldlM serializeKey serialized = .ok (serialized ++ accounts.flatMap keyBytes) := by
  induction accounts generalizing serialized with
  | nil =>
    rw [List.flatMap_nil, List.append_nil]
    rfl
  | cons key accounts ih =>
    have hkey : serializeKey serialized key = .ok (serialized ++ keyBytes key) := by
      rw [serializeKey, toBytesLittle_flag, ok_bind, toBytesLittle_flag, ok_bind, keyBytes,
        List.append_assoc serialized, List.append_assoc serialized]
      rfl
    rw [List.foldlM_cons, hkey, ok_bind, ih, List.flatMap_cons, List.append_assoc]

/-- The bounds of the two length fields. -/
structure Instruction.Fits (instruction : Instruction) : Prop where
  accounts : instruction.accounts.length < 2 ^ 64
  data : instruction.data.length < 2 ^ 64

/-- The bytes of one message, field by field. -/
def Message.bytes (m : Message) : Bytes :=
  m.programId.bytes.toList ++ (leBytes 8 m.accounts.length ++ (m.accounts.flatMap keyBytes ++
    (leBytes 8 m.data.length ++ m.data)))

variable {keyText : KeyText}

theorem serializeInstruction_eq (hkeys : keyText.Faithful) (programId : Pubkey)
    {instruction : Instruction} (hfits : instruction.Fits) :
    serializeInstruction keyText programId instruction =
      .ok (message programId instruction).bytes := by
  rw [serializeInstruction, solanaPubkeyToBytes32, hkeys, ok_bind,
    toBytesLittle_natCast hfits.accounts, ok_bind, foldlM_serializeKey, ok_bind,
    toBytesLittle_natCast hfits.data, ok_bind, List.append_assoc, List.append_assoc]
  rfl

theorem undoes_bytes (programId : Pubkey) {instruction : Instruction} (hfits : instruction.Fits) :
    Undoes parseInstruction (message programId instruction).bytes
      (message programId instruction) := by
  refine (undoes_parsePubkey programId).bind ?_
  refine (undoes_leUint hfits.accounts).bind ?_
  refine (undoes_repeated fun key _ => undoes_parseAccountMeta key).bind ?_
  refine (undoes_leUint hfits.data).bind ?_
  exact (undoes_field rfl).bind_pure rfl

/-- One serialised instruction, in front of anything. -/
theorem undoes_serializeInstruction (hkeys : keyText.Faithful) (programId : Pubkey)
    {instruction : Instruction} (hfits : instruction.Fits) :
    ∃ s, serializeInstruction keyText programId instruction = .ok s ∧
      Undoes parseInstruction s (message programId instruction) :=
  ⟨_, serializeInstruction_eq hkeys programId hfits, undoes_bytes programId hfits⟩

theorem parseInstruction_nil : parseInstruction [] = none := rfl

/-- What several calls write, one behind the other. -/
def serializeInstructions (keyText : KeyText) (calls : List (Pubkey × Instruction)) :
    Except PyError Bytes := do
  let parts ← calls.mapM fun c => serializeInstruction keyText c.1 c.2
  return parts.flatten

theorem serializeInstructions_unambiguous (hkeys : keyText.Faithful)
    {calls calls' : List (Pubkey × Instruction)} (hfits : ∀ c ∈ calls, c.2.Fits)
    (hfits' : ∀ c ∈ calls', c.2.Fits)
    (h : serializeInstructions keyText calls = serializeInstructions keyText calls') :
    (calls.map fun c => message c.1 c.2) = calls'.map fun c => message c.1 c.2 := by
  have hparts : ∀ cs : List (Pubkey × Instruction), (∀ c ∈ cs, c.2.Fits) → ∃ parts,
      serializeInstructions keyText cs = .ok parts.flatten ∧
      List.Forall₂ (Undoes parseInstruction) parts (cs.map fun c => message c.1 c.2) := by
    intro cs hcs
    obtain ⟨parts, hparts, hall⟩ := mapM_eq_ok fun c hc =>
      undoes_serializeInstruction hkeys c.1 (hcs c hc)
    refine ⟨parts, ?_, ?_⟩
    · rw [serializeInstructions, hparts]
      rfl
    · rw [List.forall₂_map_right_iff]
      exact hall.flip
  obtain ⟨parts, hok, hread⟩ := hparts calls hfits
  obtain ⟨parts', hok', hread'⟩ := hparts calls' hfits'
  rw [hok, hok', Except.ok.injEq] at h
  exact unambiguous parseInstruction_nil hread hread' h

/-- **Unique decodability.** A serialised instruction is read back from in front of
anything, two different ones are never serialised alike, and serialised instructions
in a row can be cut apart in one way only. -/
theorem serializeInstruction_decodable (keyText : KeyText) (hkeys : keyText.Faithful) :
    (∀ (programId : Pubkey) (instruction : Instruction), instruction.Fits →
      ∃ s, serializeInstruction keyText programId instruction = .ok s ∧
        ∀ rest, parseInstruction (s ++ rest) = some (message programId instruction, rest)) ∧
    (∀ (p q : Pubkey) (i j : Instruction), i.Fits → j.Fits →
      serializeInstruction keyText p i = serializeInstruction keyText q j →
      message p i = message q j) ∧
    (∀ calls calls' : List (Pubkey × Instruction),
      (∀ c ∈ calls, c.2.Fits) → (∀ c ∈ calls', c.2.Fits) →
      serializeInstructions keyText calls = serializeInstructions keyText calls' →
      (calls.map fun c => message c.1 c.2) = calls'.map fun c => message c.1 c.2) := by
  refine ⟨fun p _ hi => undoes_serializeInstruction hkeys p hi, ?_,
    fun _ _ hfits hfits' h => serializeInstructions_unambiguous hkeys hfits hfits' h⟩
  intro p q i j hi hj h
  obtain ⟨s, hs, hread⟩ := undoes_serializeInstruction hkeys p hi
  obtain ⟨t, ht, hread'⟩ := undoes_serializeInstruction hkeys q hj
  rw [hs, ht, Except.ok.injEq] at h
  subst h
  exact (Prod.mk.inj (Option.some.inj ((hread []).symm.trans (hread' [])))).1

/-- `solders` and `base58`, on keys. -/
def base58KeyText : KeyText where
  str key := Base58.encode key.bytes.toList
  b58decode s :=
    match Base58.decode s with
    | some bytes => .ok bytes
    | none => .error .valueError

theorem base58KeyText_faithful : base58KeyText.Faithful := by
  intro key
  simp only [base58KeyText, Base58.decode_encode]

def systemProgram : Pubkey := ⟨.replicate 32 0⟩

/-- The system program's transfer of 5 lamports. -/
def transferInstruction : Instruction where
  programId := systemProgram
  data := [2, 0, 0, 0, 5, 0, 0, 0, 0, 0, 0, 0]
  accounts := [⟨⟨.replicate 32 7⟩, true, true⟩, ⟨⟨.replicate 32 9⟩, false, true⟩]

theorem serializeInstruction_decodable_transfer :
    ∃ s, serializeInstruction base58KeyText systemProgram transferInstruction = .ok s ∧
      ∀ rest, parseInstruction (s ++ rest) =
        some (message systemProgram transferInstruction, rest) :=
  (serializeInstruction_decodable base58KeyText base58KeyText_faithful).1 _ _
    ⟨by decide, by decide⟩

end NeonTests.Solana
