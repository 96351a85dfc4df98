import NeonTests.Metaplex.Definitions

/-!
# Metaplex — what is written is read

* `createMetadataInstructionData_spec` — when there is an instruction, and that its data carry
  the four arguments and nothing else;
* `getMetadata_padded` — an account whose texts are padded with zeros to their full length is
  read as if they were not, whatever else the account has room for.
-/

namespace NeonTests.Metaplex

open Endian Fallible Formats Formats.Format Python Solana

theorem construct_eq_ok {α : Type} {x : Except FormatError α} {a : α} :
    construct x = .ok a ↔ x = .ok a := by
  cases x with
  | ok b => simp [construct]
  | error e => simp [construct]

-- ---------------------------------------------------------------------------
-- The instruction
-- ---------------------------------------------------------------------------

variable {name symbol uri : String} {fee : Int}

/-- The limits count characters, but bound the bytes as well. -/
theorem length_utf8_lt {s : String} (hs : s.length ≤ maxUriLen) :
    (utf8 s).length < 4294967296 := by
  have := length_utf8_le s
  unfold maxUriLen at hs
  omega

theorem buildable_instructionArgs (hname : name.length ≤ maxNameLen)
    (hsymbol : symbol.length ≤ maxSymbolLen) (huri : uri.length ≤ maxUriLen) :
    Buildable createMetadataV3Instruction (instructionArgs name symbol uri fee) ↔
      0 ≤ fee ∧ fee < 256 ^ 2 := by
  have hname' := length_utf8_lt (hname.trans (by decide : maxNameLen ≤ maxUriLen))
  have hsymbol' := length_utf8_lt (hsymbol.trans (by decide : maxSymbolLen ≤ maxUriLen))
  have huri' := length_utf8_lt huri
  simp [createMetadataV3Instruction, createMetadataV3Args, dataV2, utf8String, instructionArgs,
    hname', hsymbol', huri']

theorem createMetadataInstructionData_eq_ok {bs : Bytes} :
    createMetadataInstructionData name symbol uri fee = .ok bs ↔
      name.length ≤ maxNameLen ∧ symbol.length ≤ maxSymbolLen ∧ uri.length ≤ maxUriLen ∧
        createMetadataV3Instruction.build (instructionArgs name symbol uri fee) = .ok bs := by
  rw [createMetadataInstructionData, guard_bind_eq_ok, guard_bind_eq_ok, guard_bind_eq_ok,
    construct_eq_ok]

/-- **The instruction.** There is one exactly within the limits, and its data say which: they
are parsed as the four arguments with everything else as it is fixed, whatever follows them, and
no other arguments give the same data. -/
theorem createMetadataInstructionData_spec (name symbol uri : String) (fee : Int) :
    ((∃ bs, createMetadataInstructionData name symbol uri fee = .ok bs) ↔
      name.length ≤ maxNameLen ∧ symbol.length ≤ maxSymbolLen ∧ uri.length ≤ maxUriLen ∧
        0 ≤ fee ∧ fee < 256 ^ 2) ∧
    ∀ bs, createMetadataInstructionData name symbol uri fee = .ok bs →
      (∀ rest, createMetadataV3Instruction.parse (bs ++ rest) =
        .ok (instructionArgs name symbol uri fee, rest)) ∧
      ∀ name' symbol' uri' fee', createMetadataInstructionData name' symbol' uri' fee' = .ok bs →
        name' = name ∧ symbol' = symbol ∧ uri' = uri ∧ fee' = fee := by
  refine ⟨?_, fun bs h => ⟨?_, ?_⟩⟩
  · constructor
    · rintro ⟨bs, h⟩
      obtain ⟨hname, hsymbol, huri, hbuild⟩ := createMetadataInstructionData_eq_ok.mp h
      exact ⟨hname, hsymbol, huri,
        (buildable_instructionArgs hname hsymbol huri).mp ⟨bs, hbuild⟩⟩
    · rintro ⟨hname, hsymbol, huri, hfee⟩
      obtain ⟨bs, hbuild⟩ := (buildable_instructionArgs hname hsymbol huri).mpr hfee
      exact ⟨bs, createMetadataInstructionData_eq_ok.mpr ⟨hname, hsymbol, huri, hbuild⟩⟩
  · obtain ⟨-, -, -, hbuild⟩ := createMetadataInstructionData_eq_ok.mp h
    exact createMetadataV3Instruction.parse_build hbuild
  · intro name' symbol' uri' fee' h'
    obtain ⟨-, -, -, hbuild⟩ := createMetadataInstructionData_eq_ok.mp h
    obtain ⟨-, -, -, hbuild'⟩ := createMetadataInstructionData_eq_ok.mp h'
    rw [← List.append_nil bs] at hbuild
    have hargs := build_injective hbuild' hbuild
    injection hargs with hdata
    injection hdata with hname hsymbol huri hfee
    exact ⟨hname, hsymbol, huri, hfee⟩

-- ---------------------------------------------------------------------------
-- The account
-- ---------------------------------------------------------------------------

def nuls (n : Nat) : String := String.ofList (List.replicate n '\x00')

/-- No zero in front, none behind. -/
def Trimmed (s : String) : Prop :=
  s.toList.head? ≠ some '\x00' ∧ s.toList.getLast? ≠ some '\x00'

instance (s : String) : Decidable (Trimmed s) := inferInstanceAs (Decidable (_ ∧ _))

theorem dropWhile_nuls {cs : List Char} (h : cs.head? ≠ some '\x00') (n : Nat) :
    (List.replicate n '\x00' ++ cs).dropWhile (· = '\x00') = cs := by
  induction n with
  | zero =>
    cases cs with
    | nil => rfl
    | cons c cs =>
      have hc : c ≠ '\x00' := fun hc => h (congrArg some hc)
      simp [hc]
  | succ n ih =>
    rw [List.replicate_succ, List.cons_append, List.dropWhile_cons_of_pos (by simp)]
    exact ih

theorem stripNul_nuls {s : String} (h : Trimmed s) (n : Nat) : stripNul (s ++ nuls n) = s := by
  obtain ⟨hhead, hlast⟩ := h
  have htext : (s ++ nuls n).toList = s.toList ++ List.replicate n '\x00' := by
    rw [String.toList_append, nuls, String.toList_ofList]
  have hreverse : s.toList.reverse.head? ≠ some '\x00' := by
    rwa [List.head?_reverse]
  have hfront : (s.toList ++ List.replicate n '\x00').dropWhile (· = '\x00') =
      if s = "" then [] else s.toList ++ List.replicate n '\x00' := by
    split
    · next hs =>
      have hnone : ([] : List Char).head? ≠ some '\x00' := by simp
      have hnuls := dropWhile_nuls hnone n
      rw [List.append_nil] at hnuls
      rw [hs, String.toList_empty, List.nil_append, hnuls]
    · next hs =>
      obtain ⟨c, cs, hcs⟩ := List.exists_cons_of_ne_nil (mt String.toList_eq_nil_iff.mp hs)
      rw [hcs] at hhead ⊢
      have hc : c ≠ '\x00' := fun hc => hhead (congrArg some hc)
      exact List.dropWhile_cons_of_neg (by simpa using hc)
  rw [stripNul, htext, hfront]
  split
  · next hs => exact hs.symm
  · rw [List.reverse_append, List.reverse_replicate, dropWhile_nuls hreverse,
      List.reverse_reverse, String.ofList_toList]

/-- The account as it is stored: the texts padded. -/
def padded (metadata : MetadataAccount) (i j k : Nat) : MetadataAccount :=
  { metadata with
    data := { metadata.data with
      name := metadata.data.name ++ nuls i
      symbol := metadata.data.symbol ++ nuls j
      uri := metadata.data.uri ++ nuls k } }

/-- **The account.** What is stored with its texts padded is read as it was before, with the
text of the mint for the mint; whatever follows in the account is not looked at. -/
theorem getMetadata_padded (client : Client) (mintKey : Pubkey) (metadata : MetadataAccount)
    (i j k : Nat) (bs rest : Bytes)
    (hbuild : metadataAccount.build (padded metadata i j k) = .ok bs)
    (haccount : client.getAccountInfo (getMetadataAccount client mintKey) = some (bs ++ rest))
    (hname : Trimmed metadata.data.name) (hsymbol : Trimmed metadata.data.symbol)
    (huri : Trimmed metadata.data.uri) :
    getMetadata client mintKey =
      .ok { metadata with mint := utf8 (Base58.encode metadata.mint) } := by
  have hreadable : readable (padded metadata i j k) =
      { metadata with mint := utf8 (Base58.encode metadata.mint) } := by
    unfold readable padded
    simp only [stripNul_nuls hname, stripNul_nuls hsymbol, stripNul_nuls huri]
  have hparse := construct_eq_ok.mpr (metadataAccount.parse_build hbuild rest)
  rw [getMetadata, haccount]
  show (construct (metadataAccount.parse (bs ++ rest)) >>= _) = _
  rw [hparse, ok_bind, ← hreadable]
  rfl

def sampleMetadata : MetadataAccount where
  key := 4
  updateAuthority := List.replicate 32 1
  mint := List.replicate 32 2
  data := {
    name := "Wrapped"
    symbol := "WTKN"
    uri := ""
    sellerFeeBasisPoints := 0
    creators := some [⟨List.replicate 32 3, true, 100⟩] }
  primarySaleHappened := false
  isMutable := true
  editionNonce := none
  tokenStandard := some 2
  collection := none
  uses := none
  collectionDetails := none
  programmableConfig := none

theorem getMetadata_sampleMetadata : ∃ (client : Client) (mintKey : Pubkey),
    getMetadata client mintKey =
      .ok { sampleMetadata with mint := utf8 (Base58.encode (List.replicate 32 2)) } := by
  have hname := length_utf8_lt (s := "Wrapped" ++ nuls 25) (by decide)
  have hsymbol := length_utf8_lt (s := "WTKN" ++ nuls 6) (by decide)
  have huri := length_utf8_lt (s := "" ++ nuls 20) (by decide)
  have hbuildable : Buildable metadataAccount (padded sampleMetadata 25 6 20) := by
    simp [metadataAccount, data, creator, address, utf8String, padded, sampleMetadata] at *
    exact ⟨hname, hsymbol, huri⟩
  obtain ⟨bs, hbuild⟩ := hbuildable
  let client : Client := ⟨fun _ => metadataProgramId, fun _ => some (bs ++ [0, 0])⟩
  exact ⟨client, metadataProgramId, getMetadata_padded client metadataProgramId sampleMetadata
    25 6 20 bs [0, 0] hbuild rfl (by decide) (by decide) (by decide)⟩

end NeonTests.Metaplex
