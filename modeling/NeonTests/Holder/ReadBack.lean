import NeonTests.EvmLoader.Layouts
import NeonTests.Holder.Upload

/-!
# Holder — uploaded and read back

`transaction_from_holder` of `neon_evm/test_holder_account.py` takes as many bytes behind the
header as the header says. The on-chain program is a parameter again; of the header it is known
that a write sets the hash, and lengthens the transaction to where the write ends.

* `len_landHeader` — the length after any writes;
* `transactionFromHolder_upload` — what was uploaded into an empty holder is what is read, in
  whatever order and however often the writes landed.
-/

namespace NeonTests.Holder

open Endian EvmLoader Fallible Formats Formats.Format Python Scripts Segments Solana

/-- The holder account: the header and the buffer behind it. -/
structure HolderAccount where
  header : HolderAccountInfo
  buffer : Bytes
  deriving DecidableEq, Repr

def HolderAccount.Stored (account : HolderAccount) (data : Bytes) : Prop :=
  ∃ front, holderAccountInfoLayout.build account.header = .ok front ∧
    data = front ++ account.buffer

/-- `HOLDER_ACCOUNT_INFO_LAYOUT.sizeof()` -/
def headerSize : Nat := 82

def parseHeader (data : Bytes) : Except PyError HolderAccountInfo :=
  match holderAccountInfoLayout.parse data with
  | .ok (header, _) => .ok header
  | .error _ => .error (.exception "StreamError")

def transactionFromHolder (getAccountInfo : Pubkey → Option Bytes) (key : Pubkey) :
    Except PyError Bytes := do
  match getAccountInfo key with
  | none => throw .attributeError
  | some data => do
    let header ← parseHeader data
    return (data.drop headerSize).take header.len.toNat

-- ---------------------------------------------------------------------------
-- The header on chain
-- ---------------------------------------------------------------------------

/-- The program with what it does to the header: a write under the hash that is there, or into
an empty holder. -/
structure HolderAccountProgram extends HolderProgram where
  processHeader : HolderAccountInfo → Bytes → HolderAccountInfo
  processHeader_write : ∀ header data hash s, decodeWriteHolder data = some (hash, s) →
    header.hash = hash ∨ header.len = 0 →
    (processHeader header data).hash = hash ∧
      (processHeader header data).len = max header.len s.stop

namespace HolderAccountProgram

variable (program : HolderAccountProgram)

def landHeader (header : HolderAccountInfo) (landed : List Instruction) : HolderAccountInfo :=
  landed.foldl (fun header ix => program.processHeader header ix.data) header

def landAccount (account : HolderAccount) (landed : List Instruction) : HolderAccount where
  header := program.landHeader account.header landed
  buffer := program.land account.buffer landed

end HolderAccountProgram

variable {program : HolderAccountProgram} {client : SolanaClient}
  {loaderId holderAccount : Pubkey} {operator : Keypair} {signedTx : SignedTransaction}
  {header : HolderAccountInfo} {landed : List Instruction} {segs : List (Segment UInt8)}
  {hash : Bytes}

/-- The writes of one transaction lengthen it to the furthest end. -/
theorem len_landHeader (hcarries : List.Forall₂ (Carries hash) landed segs)
    (hhash : header.hash = hash ∨ header.len = 0) :
    (program.landHeader header landed).len =
      segs.foldl (fun n s => max n (s.stop : Int)) header.len := by
  induction hcarries generalizing header with
  | nil => rfl
  | @cons ix s landed segs hcarries _ ih =>
    obtain ⟨hhash', hlen⟩ := program.processHeader_write header ix.data hash s hcarries hhash
    show (program.landHeader (program.processHeader header ix.data) landed).len = _
    rw [ih (Or.inl hhash'), List.foldl_cons, hlen]

/-- The furthest end, of segments that reach up to a bound. -/
theorem foldl_max_stop {n bound : Int} (hn : n ≤ bound) (hle : ∀ s ∈ segs, (s.stop : Int) ≤ bound)
    (hreach : n = bound ∨ ∃ s ∈ segs, (s.stop : Int) = bound) :
    segs.foldl (fun n s => max n (s.stop : Int)) n = bound := by
  induction segs generalizing n with
  | nil => exact hreach.resolve_right (by simp)
  | cons s segs ih =>
    rw [List.forall_mem_cons] at hle
    rw [List.foldl_cons]
    refine ih (max_le hn hle.1) hle.2 ?_
    rcases hreach with rfl | ⟨t, ht, hstop⟩
    · exact Or.inl (max_eq_left hle.1)
    · rcases List.mem_cons.mp ht with rfl | ht
      · exact Or.inl (by rw [hstop]; exact max_eq_right hn)
      · exact Or.inr ⟨t, ht, hstop⟩

-- ---------------------------------------------------------------------------
-- The upload
-- ---------------------------------------------------------------------------

/-- An upload that returned keeps its promise. -/
theorem uploadCorrect_of_returned (program : HolderProgram) {calls : List RpcCall}
    (hrun : exec (writeTransactionToHolderAccount client loaderId signedTx holderAccount operator)
      [] = (.ok (), calls)) : UploadCorrect program signedTx calls := by
  obtain ⟨sent, segs, hcalls, hcarries, htiles⟩ := @sendParts_sent client loaderId holderAccount
    operator signedTx signedTx.rawTransaction 0 [] []
  rw [writeTransactionToHolderAccount, exec_bind] at hrun
  rw [Int.natCast_zero] at hcalls htiles
  rcases hsend : exec (sendParts client loaderId signedTx holderAccount operator
    signedTx.rawTransaction 0 []) [] with ⟨e | receipts, sends⟩
  · rw [hsend] at hrun
    cases hrun
  · rw [hsend] at hrun hcalls htiles
    obtain ⟨confirms, hend, hall, -⟩ := confirmParts_calls client receipts sends
    have hcalls' : calls = sends ++ confirms := (congrArg Prod.snd hrun).symm.trans hend
    rw [hcalls', show sends = sent.map (sendCall operator) from hcalls]
    exact uploadCorrect_of_tiles program hcarries (htiles receipts rfl) hall

theorem exists_carried (h : ∀ ix ∈ landed, ∃ s, Carries hash ix s) :
    ∃ segs, List.Forall₂ (Carries hash) landed segs := by
  induction landed with
  | nil => exact ⟨[], .nil⟩
  | cons ix landed ih =>
    rw [List.forall_mem_cons] at h
    obtain ⟨s, hs⟩ := h.1
    obtain ⟨segs, hsegs⟩ := ih h.2
    exact ⟨s :: segs, .cons hs hsegs⟩

/-- The header ends with the length of the transaction. -/
theorem len_of_uploadCorrect {calls : List RpcCall}
    (hcorrect : UploadCorrect program.toHolderProgram signedTx calls)
    (hempty : header.len = 0) (hlanded : ∀ ix, ix ∈ landed ↔ ix ∈ sentInstructions calls) :
    (program.landHeader header landed).len = signedTx.rawTransaction.length := by
  obtain ⟨segs, hcarries⟩ : ∃ segs, List.Forall₂ (Carries signedTx.hash) landed segs :=
    exists_carried fun ix hix => by
      obtain ⟨s, hs, -, -⟩ := hcorrect.wellFormed ix ((hlanded ix).mp hix)
      exact ⟨s, hs⟩
  have hle : ∀ s ∈ segs, s.stop ≤ signedTx.rawTransaction.length := by
    intro s hs
    obtain ⟨ix, hix, hcarried⟩ := exists_related_right hcarries hs
    obtain ⟨t, ht, hpos, -⟩ := hcorrect.wellFormed ix ((hlanded ix).mp hix)
    have hsame := ht.unique hcarried
    subst hsame
    have hlast : t.Covers (t.stop - 1) := by
      unfold Segment.Covers Segment.stop
      omega
    have hbound := (hcorrect.covers (t.stop - 1)).mp
      ⟨ix, (hlanded ix).mp hix, t, hcarried, hlast⟩
    omega
  rw [len_landHeader hcarries (Or.inr hempty)]
  refine foldl_max_stop (by omega) (fun s hs => by exact_mod_cast hle s hs) ?_
  by_cases hnone : signedTx.rawTransaction.length = 0
  · exact Or.inl (by omega)
  · -- the last byte is in one of the segments
    obtain ⟨ix, hix, s, hcarried, -, hstop⟩ :=
      (hcorrect.covers (signedTx.rawTransaction.length - 1)).mpr (by omega)
    obtain ⟨t, ht, hcarried'⟩ := exists_related hcarries ((hlanded ix).mpr hix)
    have hsame := hcarried.unique hcarried'
    subst hsame
    have hbound := hle s ht
    exact Or.inr ⟨s, ht, by omega⟩

/-- **Uploaded and read back.** After an upload into an empty holder the transaction is read
from it as it was, in whatever order its writes landed and however often. -/
theorem transactionFromHolder_upload (program : HolderAccountProgram) (client : SolanaClient)
    (loaderId key : Pubkey) (operator : Keypair) (signedTx : SignedTransaction)
    (calls : List RpcCall) (account : HolderAccount) (landed : List Instruction) (data : Bytes)
    (getAccountInfo : Pubkey → Option Bytes)
    (hrun : exec (writeTransactionToHolderAccount client loaderId signedTx key operator) [] =
      (.ok (), calls))
    (hempty : account.header.len = 0)
    (hlanded : ∀ ix, ix ∈ landed ↔ ix ∈ sentInstructions calls)
    (hstored : (program.landAccount account landed).Stored data)
    (haccount : getAccountInfo key = some data) :
    transactionFromHolder getAccountInfo key = .ok signedTx.rawTransaction := by
  have hcorrect := uploadCorrect_of_returned program.toHolderProgram hrun
  obtain ⟨front, hbuild, rfl⟩ := hstored
  have hlen := len_of_uploadCorrect hcorrect hempty hlanded
  have hfront : front.length = headerSize := fixedSize_holderAccountInfo.length_build hbuild
  have hparse : parseHeader (front ++ (program.landAccount account landed).buffer) =
      .ok (program.landAccount account landed).header := by
    rw [parseHeader, holderAccountInfoLayout.parse_build hbuild]
  rw [transactionFromHolder, haccount]
  show (parseHeader (front ++ (program.landAccount account landed).buffer) >>= _) = _
  rw [hparse, ok_bind, List.drop_left' hfront]
  show Except.ok (((program.land account.buffer landed)).take
    (program.landHeader account.header landed).len.toNat) = _
  rw [hlen, Int.toNat_natCast, (hcorrect.landed account.buffer landed hlanded).1]

/-- The header after a write; a new hash starts a new transaction. -/
def zeroFillingHeader (header : HolderAccountInfo) (data : Bytes) : HolderAccountInfo :=
  match decodeWriteHolder data with
  | none => header
  | some (hash, s) =>
    { header with
      hash := hash
      len := if header.hash = hash then max header.len s.stop else s.stop }

theorem zeroFillingHeader_write (header : HolderAccountInfo) (data hash : Bytes)
    (s : Segment UInt8) (h : decodeWriteHolder data = some (hash, s))
    (hhash : header.hash = hash ∨ header.len = 0) :
    (zeroFillingHeader header data).hash = hash ∧
      (zeroFillingHeader header data).len = max header.len s.stop := by
  rw [zeroFillingHeader, h]
  refine ⟨rfl, ?_⟩
  show (if header.hash = hash then max header.len (s.stop : Int) else s.stop) = _
  split
  · rfl
  · next hne =>
    rw [hhash.resolve_left hne]
    omega

def HolderAccountProgram.zeroFilling : HolderAccountProgram where
  toHolderProgram := .zeroFilling
  processHeader := zeroFillingHeader
  processHeader_write := zeroFillingHeader_write

def emptyHolder : HolderAccount where
  header := {
    tag := 52
    headerVersion := 0
    owner := List.replicate 32 3
    hash := List.replicate 32 0
    len := 0
    heapOffset := 0 }
  buffer := List.replicate 4 0

/-- The write of a piece of the transaction of two parts. -/
def twoPartWrite (offset length : Nat) : Instruction where
  programId := sampleKey 1
  data := [0x26] ++ twoPartTx.hash ++ leBytes 8 offset ++ List.replicate length 7
  accounts := [
    { pubkey := sampleKey 2, isSigner := false, isWritable := true },
    { pubkey := sampleKey 3, isSigner := true, isWritable := false }]

theorem twoPartTx_run :
    exec (writeTransactionToHolderAccount answeringClient (sampleKey 1) twoPartTx (sampleKey 2)
      ⟨sampleKey 3⟩) [] =
        (.ok (), [sendCall ⟨sampleKey 3⟩ (twoPartWrite 0 920),
          sendCall ⟨sampleKey 3⟩ (twoPartWrite 920 1), confirmCall (Vector.replicate 64 0),
          confirmCall (Vector.replicate 64 0)]) := by
  have hraw : twoPartTx.rawTransaction = List.replicate 921 7 := rfl
  have hfirst : makeWriteHolder (sampleKey 3) (sampleKey 1) (sampleKey 2) twoPartTx.hash
      (0 : Nat) (List.replicate 920 7) = .ok (twoPartWrite 0 920) := rfl
  have hsecond : makeWriteHolder (sampleKey 3) (sampleKey 1) (sampleKey 2) twoPartTx.hash
      (920 : Nat) (List.replicate 1 7) = .ok (twoPartWrite 920 1) := rfl
  have hanswer (calls : List RpcCall) (call : RpcCall) :
      answeringClient.onSend calls call = .ok (Vector.replicate 64 0) := rfl
  have hsend (rest : Bytes) (hne : rest ≠ []) :=
    @exec_sendParts answeringClient (sampleKey 1) (sampleKey 2) ⟨sampleKey 3⟩ twoPartTx rest hne
  have hrest := hsend (List.replicate 1 7) nofun 920 [Vector.replicate 64 0]
    [sendCall ⟨sampleKey 3⟩ (twoPartWrite 0 920)]
  rw [List.take_replicate, List.drop_replicate] at hrest
  simp only [Nat.reduceLeDiff, min_eq_right, hsecond, hanswer, Nat.reduceSub, List.replicate_zero,
    exec_sendParts_nil] at hrest
  have hall := hsend (List.replicate 921 7) nofun 0 [] []
  rw [List.take_replicate, List.drop_replicate] at hall
  simp only [Nat.reduceLeDiff, min_eq_left, hfirst, hanswer, Nat.reduceSub, List.nil_append,
    List.length_replicate, Nat.zero_add, hrest] at hall
  rw [writeTransactionToHolderAccount, exec_bind, hraw]
  rw [Int.natCast_zero] at hall
  rw [hall]
  show exec (confirmParts answeringClient [_, _]) _ = _
  rw [exec_confirmParts_cons]
  rfl

/-- The last byte first, then the others, then the last byte again. -/
def twoPartLanded : List Instruction :=
  [twoPartWrite 920 1, twoPartWrite 0 920, twoPartWrite 920 1]

theorem zeroFillingHeader_twoPartWrite (header : HolderAccountInfo) (offset length : Nat)
    (h : makeWriteHolder (sampleKey 3) (sampleKey 1) (sampleKey 2) twoPartTx.hash offset
      (List.replicate length 7) = .ok (twoPartWrite offset length)) :
    zeroFillingHeader header (twoPartWrite offset length).data =
      { header with
        hash := twoPartTx.hash
        len := if header.hash = twoPartTx.hash then max header.len (offset + length : Nat)
          else (offset + length : Nat) } := by
  have hcarries := carries_makeWriteHolder twoPartTx.length_hash h
  rw [zeroFillingHeader, hcarries]
  simp only [Segment.stop, List.length_replicate]

theorem twoPartLanded_header :
    (HolderAccountProgram.zeroFilling).landHeader emptyHolder.header twoPartLanded =
      { emptyHolder.header with hash := twoPartTx.hash, len := 921 } := by
  have hfirst (header : HolderAccountInfo) :=
    zeroFillingHeader_twoPartWrite header 0 920 rfl
  have hsecond (header : HolderAccountInfo) :=
    zeroFillingHeader_twoPartWrite header 920 1 rfl
  rw [HolderAccountProgram.landHeader, twoPartLanded, List.foldl_cons, List.foldl_cons,
    List.foldl_cons, List.foldl_nil]
  have hprocess : (HolderAccountProgram.zeroFilling).processHeader = zeroFillingHeader := rfl
  rw [hprocess]
  have hnew : emptyHolder.header.hash ≠ twoPartTx.hash := by decide
  rw [hsecond emptyHolder.header, if_neg hnew, hfirst, if_pos rfl, hsecond, if_pos rfl]
  simp only [Nat.reduceAdd, Nat.cast_ofNat]
  rfl

theorem transactionFromHolder_twoParts :
    ∃ data, ((HolderAccountProgram.zeroFilling).landAccount emptyHolder twoPartLanded).Stored data ∧
      transactionFromHolder (fun _ => some data) (sampleKey 2) =
        .ok (List.replicate 921 7) := by
  have hreversed (a b ix : Instruction) : ix ∈ [b, a, b] ↔ ix ∈ [a, b] := by
    simp only [List.mem_cons, List.not_mem_nil, or_false]
    tauto
  obtain ⟨front, hbuild⟩ : ∃ front, holderAccountInfoLayout.build
      { emptyHolder.header with hash := twoPartTx.hash, len := 921 } = .ok front := ⟨_, rfl⟩
  rw [← twoPartLanded_header] at hbuild
  obtain ⟨data, hstored⟩ : ∃ data, ((HolderAccountProgram.zeroFilling).landAccount emptyHolder
      twoPartLanded).Stored data := ⟨_, front, hbuild, rfl⟩
  have hlanded (ix : Instruction) : ix ∈ twoPartLanded ↔
      ix ∈ sentInstructions [sendCall ⟨sampleKey 3⟩ (twoPartWrite 0 920),
        sendCall ⟨sampleKey 3⟩ (twoPartWrite 920 1), confirmCall (Vector.replicate 64 0),
        confirmCall (Vector.replicate 64 0)] := hreversed _ _ _
  exact ⟨data, hstored, transactionFromHolder_upload .zeroFilling answeringClient (sampleKey 1)
    (sampleKey 2) ⟨sampleKey 3⟩ twoPartTx _ emptyHolder twoPartLanded data (fun _ => some data)
    twoPartTx_run rfl hlanded hstored rfl⟩

end NeonTests.Holder
