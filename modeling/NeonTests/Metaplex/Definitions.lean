import NeonTests.Lib.Base58
import NeonTests.Lib.Format
import NeonTests.Solana.Types

/-!
# Metaplex — the metadata of a token

The formats of `utils/metaplex.py` with `create_metadata_instruction_data` and `get_metadata`.
An enumeration is the byte it is stored as: parsing takes any, and building takes any number.
The derivation of the account's address and the node are parameters.
-/

namespace NeonTests.Metaplex

open Endian Formats Formats.Format Python Solana

-- ---------------------------------------------------------------------------
-- The parts
-- ---------------------------------------------------------------------------

def utf8String : Format String := pascalString 4

def address : Format Bytes := bytes 32

structure Creator where
  address : Bytes
  verified : Bool
  share : Int
  deriving DecidableEq, Repr

def creator : Format Creator :=
  (address.seq (flag.seq (uint 1))).iso {
    toFun := fun ⟨address, verified, share⟩ => ⟨address, verified, share⟩
    invFun := fun c => ⟨c.address, c.verified, c.share⟩ }

structure Collection where
  verified : Bool
  key : Bytes
  deriving DecidableEq, Repr

def collection : Format Collection :=
  (flag.seq address).iso {
    toFun := fun ⟨verified, key⟩ => ⟨verified, key⟩
    invFun := fun c => ⟨c.verified, c.key⟩ }

structure Uses where
  /-- `UseMethodType` -/
  useMethod : Int
  remaining : Int
  total : Int
  deriving DecidableEq, Repr

def uses : Format Uses :=
  ((uint 1).seq ((uint 8).seq (uint 8))).iso {
    toFun := fun ⟨useMethod, remaining, total⟩ => ⟨useMethod, remaining, total⟩
    invFun := fun u => ⟨u.useMethod, u.remaining, u.total⟩ }

structure CollectionDetails where
  size : Int
  deriving DecidableEq, Repr

def collectionDetails : Format CollectionDetails :=
  ((const [0]).seq (uint 8)).iso {
    toFun := fun ⟨_, size⟩ => ⟨size⟩
    invFun := fun d => ⟨(), d.size⟩ }

structure ProgrammableConfig where
  ruleSet : Option String
  deriving DecidableEq, Repr

def programmableConfig : Format ProgrammableConfig :=
  ((const [0]).seq (option utf8String)).iso {
    toFun := fun ⟨_, ruleSet⟩ => ⟨ruleSet⟩
    invFun := fun p => ⟨(), p.ruleSet⟩ }

-- ---------------------------------------------------------------------------
-- The account
-- ---------------------------------------------------------------------------

structure Data where
  name : String
  symbol : String
  uri : String
  sellerFeeBasisPoints : Int
  creators : Option (List Creator)
  deriving DecidableEq, Repr

def data : Format Data :=
  (utf8String.seq (utf8String.seq (utf8String.seq
    ((uint 2).seq (option (prefixedArray 4 creator)))))).iso {
    toFun := fun ⟨name, symbol, uri, fee, creators⟩ => ⟨name, symbol, uri, fee, creators⟩
    invFun := fun d => ⟨d.name, d.symbol, d.uri, d.sellerFeeBasisPoints, d.creators⟩ }

structure MetadataAccount where
  /-- `MetadataKeyType` -/
  key : Int
  updateAuthority : Bytes
  mint : Bytes
  data : Data
  primarySaleHappened : Bool
  isMutable : Bool
  editionNonce : Option Int
  /-- `TokenStandardType` -/
  tokenStandard : Option Int
  collection : Option Collection
  uses : Option Uses
  collectionDetails : Option CollectionDetails
  programmableConfig : Option ProgrammableConfig
  deriving DecidableEq, Repr

def metadataAccount : Format MetadataAccount :=
  ((uint 1).seq (address.seq (address.seq (data.seq (flag.seq (flag.seq ((option (uint 1)).seq
    ((option (uint 1)).seq ((option collection).seq ((option uses).seq
      ((option collectionDetails).seq (option programmableConfig)))))))))))).iso {
    toFun := fun ⟨key, updateAuthority, mint, data, primarySaleHappened, isMutable, editionNonce,
        tokenStandard, collection, uses, collectionDetails, programmableConfig⟩ =>
      ⟨key, updateAuthority, mint, data, primarySaleHappened, isMutable, editionNonce,
        tokenStandard, collection, uses, collectionDetails, programmableConfig⟩
    invFun := fun m =>
      ⟨m.key, m.updateAuthority, m.mint, m.data, m.primarySaleHappened, m.isMutable,
        m.editionNonce, m.tokenStandard, m.collection, m.uses, m.collectionDetails,
        m.programmableConfig⟩ }

-- ---------------------------------------------------------------------------
-- The instruction
-- ---------------------------------------------------------------------------

structure DataV2 where
  name : String
  symbol : String
  uri : String
  sellerFeeBasisPoints : Int
  creators : Option (List Creator)
  collection : Option Collection
  uses : Option Uses
  deriving DecidableEq, Repr

def dataV2 : Format DataV2 :=
  (utf8String.seq (utf8String.seq (utf8String.seq ((uint 2).seq
    ((option (prefixedArray 4 creator)).seq ((option collection).seq (option uses))))))).iso {
    toFun := fun ⟨name, symbol, uri, fee, creators, collection, uses⟩ =>
      ⟨name, symbol, uri, fee, creators, collection, uses⟩
    invFun := fun d =>
      ⟨d.name, d.symbol, d.uri, d.sellerFeeBasisPoints, d.creators, d.collection, d.uses⟩ }

structure CreateMetadataV3Args where
  data : DataV2
  isMutable : Bool
  collectionDetails : Option CollectionDetails
  deriving DecidableEq, Repr

def createMetadataV3Args : Format CreateMetadataV3Args :=
  (dataV2.seq (flag.seq (option collectionDetails))).iso {
    toFun := fun ⟨data, isMutable, collectionDetails⟩ => ⟨data, isMutable, collectionDetails⟩
    invFun := fun a => ⟨a.data, a.isMutable, a.collectionDetails⟩ }

def createMetadataV3Instruction : Format CreateMetadataV3Args :=
  ((const [0x21]).seq createMetadataV3Args).iso {
    toFun := fun ⟨_, args⟩ => args
    invFun := fun args => ⟨(), args⟩ }

/-- What the functions raise. -/
inductive MetaplexError
  | assertionError
  /-- `.data` of `None` -/
  | attributeError
  | construct (e : FormatError)
  deriving DecidableEq, Repr

def construct {α : Type} (x : Except FormatError α) : Except MetaplexError α :=
  match x with
  | .ok a => .ok a
  | .error e => .error (.construct e)

/-- `MetadataLimit` -/
def maxNameLen : Nat := 32
def maxSymbolLen : Nat := 10
def maxUriLen : Nat := 200

/-- What is built: everything but the four arguments is fixed. -/
def instructionArgs (name symbol uri : String) (fee : Int) : CreateMetadataV3Args where
  data := {
    name := name
    symbol := symbol
    uri := uri
    sellerFeeBasisPoints := fee
    creators := none
    collection := none
    uses := none }
  isMutable := true
  collectionDetails := none

def createMetadataInstructionData (name symbol uri : String) (fee : Int) :
    Except MetaplexError Bytes := do
  Fallible.guard (name.length ≤ maxNameLen) .assertionError
  Fallible.guard (symbol.length ≤ maxSymbolLen) .assertionError
  Fallible.guard (uri.length ≤ maxUriLen) .assertionError
  construct (createMetadataV3Instruction.build (instructionArgs name symbol uri fee))

-- ---------------------------------------------------------------------------
-- get_metadata
-- ---------------------------------------------------------------------------

/-- The derivation of addresses, and the accounts as the node has them. -/
structure Client where
  /-- `Pubkey.find_program_address(seeds, METADATA_PROGRAM_ID)[0]` -/
  findProgramAddress : List Bytes → Pubkey
  getAccountInfo : Pubkey → Option Bytes

/-- `METADATA_PROGRAM_ID` -/
def metadataProgramId : Pubkey :=
  ⟨#v[11, 112, 101, 177, 227, 209, 124, 69, 56, 157, 82, 127, 107, 4, 195, 205, 88, 184, 108, 115,
    26, 160, 253, 181, 73, 182, 209, 188, 3, 248, 41, 70]⟩

def getMetadataAccount (client : Client) (mintKey : Pubkey) : Pubkey :=
  client.findProgramAddress
    [utf8 "metadata", metadataProgramId.bytes.toList, mintKey.bytes.toList]

/-- `value.strip("\x00")` -/
def stripNul (value : String) : String :=
  String.ofList (((value.toList.dropWhile (· = '\x00')).reverse.dropWhile (· = '\x00')).reverse)

/-- What is done to the parsed account. -/
def readable (metadata : MetadataAccount) : MetadataAccount :=
  { metadata with
    mint := utf8 (Base58.encode metadata.mint)
    data := { metadata.data with
      name := stripNul metadata.data.name
      symbol := stripNul metadata.data.symbol
      uri := stripNul metadata.data.uri } }

def getMetadata (client : Client) (mintKey : Pubkey) : Except MetaplexError MetadataAccount := do
  match client.getAccountInfo (getMetadataAccount client mintKey) with
  | none => throw .attributeError
  | some data => do
    let (metadata, _) ← construct (metadataAccount.parse data)
    return readable metadata

end NeonTests.Metaplex
