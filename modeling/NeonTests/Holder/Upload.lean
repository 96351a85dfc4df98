import NeonTests.Holder.Definitions

/-!
# Holder upload — any order, any number of times

The instructions of an upload carry disjoint pieces of the transaction that
together make it up, so the holder ends with the transaction however the node
orders and repeats them.

* `sendParts_sent` — what the cutting loop puts into flight: one instruction for
  each part of a tiling of the transaction;
* `land_landing` — landed instructions are a `Landing` of the segments they carry;
* `upload_lands_anyhow` — the result, over every node, program and transaction.
-/

namespace NeonTests.Holder

open Endian Fallible Python Scripts Segments Solana

variable {client : SolanaClient} {loaderId holderAccount : Pubkey} {operator : Keypair}
  {signedTx : SignedTransaction}

-- ---------------------------------------------------------------------------
-- One instruction
-- ---------------------------------------------------------------------------

/-- The instruction carries the segment, under the given transaction hash. -/
def Carries (hash : Bytes) (ix : Instruction) (s : Segment UInt8) : Prop :=
  decodeWriteHolder ix.data = some (hash, s)

/-- What `make_WriteHolder` encodes, the program decodes. -/
theorem carries_makeWriteHolder {operator : Pubkey} {hash payload : Bytes} {offset : Nat}
    {ix : Instruction} (hhash : hash.length = 32)
    (h : makeWriteHolder operator loaderId holderAccount hash offset payload = .ok ix) :
    Carries hash ix ⟨offset, payload⟩ := by
  obtain ⟨d, hd, h⟩ := bind_eq_ok.mp h
  obtain ⟨⟨_, hlt⟩, rfl⟩ := toBytesLittle_eq_ok.mp hd
  rw [Int.toNat_natCast] at hlt
  rw [pure_eq_ok] at h
  subst h
  have hshape : hash ++ leBytes 8 offset ++ payload = hash ++ (leBytes 8 offset ++ payload) :=
    List.append_assoc ..
  have h8 : (leBytes 8 offset).length = 8 := length_leBytes ..
  show decodeWriteHolder (0x26 :: (hash ++ leBytes 8 offset ++ payload)) = _
  have hlen : 40 ≤ (hash ++ leBytes 8 offset ++ payload).length := by
    simp only [List.length_append]
    omega
  rw [decodeWriteHolder, if_pos ⟨rfl, hlen⟩]
  have hrest : (hash ++ leBytes 8 offset ++ payload).drop 32 = leBytes 8 offset ++ payload := by
    rw [hshape, List.drop_left' hhash]
  have hpayload : (hash ++ leBytes 8 offset ++ payload).drop 40 = payload := by
    have : (hash ++ leBytes 8 offset).length = 40 := by
      rw [List.length_append]
      omega
    exact List.drop_left' this
  rw [hrest, hpayload, List.take_left' h8, leNat_leBytes hlt, hshape, List.take_left' hhash]

theorem Carries.unique {hash : Bytes} {ix : Instruction} {s t : Segment UInt8}
    (hs : Carries hash ix s) (ht : Carries hash ix t) : s = t := by
  have := hs.symm.trans ht
  simpa using this

-- ---------------------------------------------------------------------------
-- The calls of a run
-- ---------------------------------------------------------------------------

/-- The call that sends one instruction of an upload. -/
def sendCall (operator : Keypair) (ix : Instruction) : RpcCall :=
  .sendTransaction (Transaction.new.add ix) operator sendOpts

def RpcCall.IsConfirm : RpcCall → Prop
  | .sendTransaction .. => False
  | .confirmTransaction .. => True

@[simp] theorem sentInstructions_sends (operator : Keypair) (sent : List Instruction) :
    sentInstructions (sent.map (sendCall operator)) = sent := by
  induction sent with
  | nil => rfl
  | cons ix sent ih =>
    show [ix] ++ sentInstructions (sent.map (sendCall operator)) = _
    rw [ih, List.singleton_append]

theorem sentInstructions_append (a b : List RpcCall) :
    sentInstructions (a ++ b) = sentInstructions a ++ sentInstructions b :=
  List.flatMap_append ..

theorem sentInstructions_confirms {calls : List RpcCall} (h : ∀ c ∈ calls, c.IsConfirm) :
    sentInstructions calls = [] := by
  rw [sentInstructions, List.flatMap_eq_nil_iff]
  intro c hc
  cases c with
  | sendTransaction => exact (h _ hc).elim
  | confirmTransaction => rfl

def confirmCall (rcpt : Signature) : RpcCall := .confirmTransaction rcpt .confirmed

theorem exec_confirmParts_cons (rcpt : Signature) (receipts : List Signature)
    (calls : List RpcCall) :
    exec (confirmParts client (rcpt :: receipts)) calls =
      match client.onConfirm calls (confirmCall rcpt) with
      | .error e => (.error e, calls ++ [confirmCall rcpt])
      | .ok _ => exec (confirmParts client receipts) (calls ++ [confirmCall rcpt]) := by
  have hconfirm : exec (client.confirmTransaction rcpt .confirmed) calls =
      (client.onConfirm calls (confirmCall rcpt), calls ++ [confirmCall rcpt]) := rfl
  rw [confirmParts, exec_bind, hconfirm]
  rcases client.onConfirm calls (confirmCall rcpt) with e | u <;> rfl

/-- The second loop only confirms, and it does so at least once unless it has
nothing to do. -/
theorem confirmParts_calls (client : SolanaClient) (receipts : List Signature)
    (calls : List RpcCall) :
    let out := exec (confirmParts client receipts) calls
    ∃ confirms, out.2 = calls ++ confirms ∧ (∀ c ∈ confirms, c.IsConfirm) ∧
      (out.1 = .ok () ∨ confirms ≠ []) := by
  induction receipts generalizing calls with
  | nil => exact ⟨[], (List.append_nil _).symm, nofun, .inl rfl⟩
  | cons rcpt receipts ih =>
    rw [exec_confirmParts_cons]
    rcases client.onConfirm calls (confirmCall rcpt) with e | u
    · refine ⟨[confirmCall rcpt], rfl, ?_, .inr nofun⟩
      intro c hc
      rw [List.mem_singleton.mp hc]
      trivial
    · obtain ⟨confirms, hcalls, hall, _⟩ := ih (calls ++ [confirmCall rcpt])
      refine ⟨confirmCall rcpt :: confirms, ?_, ?_, .inr nofun⟩
      · show (exec (confirmParts client receipts) (calls ++ [confirmCall rcpt])).2 = _
        rw [hcalls, List.append_assoc, List.singleton_append]
      · exact List.forall_mem_cons.mpr ⟨trivial, hall⟩

theorem exec_sendParts_nil (offset : Int) (receipts : List Signature) (calls : List RpcCall) :
    exec (sendParts client loaderId signedTx holderAccount operator [] offset receipts) calls =
      (.ok receipts, calls) := by
  rw [sendParts]
  rfl

/-- One round of the loop, for each answer it can get. -/
theorem exec_sendParts {rest : Bytes} (hrest : rest ≠ []) (offset : Nat)
    (receipts : List Signature) (calls : List RpcCall) :
    exec (sendParts client loaderId signedTx holderAccount operator rest offset receipts) calls =
      match makeWriteHolder operator.pubkey loaderId holderAccount signedTx.hash offset
          (rest.take 920) with
      | .error e => (.error e, calls)
      | .ok ix =>
        match client.onSend calls (sendCall operator ix) with
        | .error e => (.error e, calls ++ [sendCall operator ix])
        | .ok sig =>
          exec (sendParts client loaderId signedTx holderAccount operator (rest.drop 920)
            (offset + (rest.take 920).length : Nat) (receipts ++ [sig]))
            (calls ++ [sendCall operator ix]) := by
  have hlen : rest.length ≠ 0 := by
    rw [Ne, List.length_eq_zero_iff]
    exact hrest
  rw [sendParts, if_neg hlen, exec_bind, exec_liftM]
  rcases makeWriteHolder operator.pubkey loaderId holderAccount signedTx.hash offset
    (rest.take 920) with e | ix
  · rfl
  · have hsend : exec (client.sendTransaction (Transaction.new.add ix) operator sendOpts) calls =
        (client.onSend calls (sendCall operator ix), calls ++ [sendCall operator ix]) := rfl
    dsimp only
    rw [exec_bind, hsend]
    rcases client.onSend calls (sendCall operator ix) with e | sig
    · rfl
    · rw [Int.natCast_add]

/-- The loop only sends; what it sent carries segments in order, and they tile
the bytes it was given if it came to its end. -/
theorem sendParts_sent (rest : Bytes) (offset : Nat) (receipts : List Signature)
    (calls : List RpcCall) :
    let out := exec (sendParts client loaderId signedTx holderAccount operator rest offset receipts)
      calls
    ∃ sent segs, out.2 = calls ++ sent.map (sendCall operator) ∧
      List.Forall₂ (Carries signedTx.hash) sent segs ∧
      ∀ r, out.1 = .ok r → Tiles 920 offset rest segs := by
  induction hn : rest.length using Nat.strong_induction_on
    generalizing rest offset receipts calls with
  | _ n ih =>
    rcases eq_or_ne rest [] with rfl | hne
    · rw [exec_sendParts_nil]
      exact ⟨[], [], (List.append_nil _).symm, .nil, fun _ _ => .nil offset⟩
    · have hpos : 0 < rest.length := List.length_pos_iff.mpr hne
      rw [exec_sendParts hne]
      rcases hix : makeWriteHolder operator.pubkey loaderId holderAccount signedTx.hash offset
        (rest.take 920) with e | ix
      · exact ⟨[], [], (List.append_nil _).symm, .nil, nofun⟩
      · have hcarries := carries_makeWriteHolder signedTx.length_hash hix
        dsimp only
        rcases client.onSend calls (sendCall operator ix) with e | sig
        · exact ⟨[ix], [_], rfl, .cons hcarries .nil, nofun⟩
        · have hdrop : (rest.drop 920).length < n := by
            rw [List.length_drop]
            omega
          obtain ⟨sent, segs, hcalls, hall, htiles⟩ := ih _ hdrop (rest.drop 920)
            (offset + (rest.take 920).length) (receipts ++ [sig])
            (calls ++ [sendCall operator ix]) rfl
          refine ⟨ix :: sent, _ :: segs, ?_, .cons hcarries hall, ?_⟩
          · rw [hcalls, List.append_assoc, List.map_cons, List.singleton_append]
          · intro r hr
            have hpart : rest.take 920 ≠ [] := by
              rw [Ne, List.take_eq_nil_iff]
              exact fun h => h.elim (by omega) hne
            have htile := Tiles.cons hpart (List.length_take_le 920 rest) (htiles r hr)
            rwa [List.take_append_drop] at htile

/-- With a node that answers, the loop comes to its end as long as every offset
fits its eight bytes. -/
theorem sendParts_total (hnode : ∀ calls call, ∃ sig, client.onSend calls call = .ok sig)
    (rest : Bytes) (offset : Nat) (receipts : List Signature) (calls : List RpcCall)
    (hfit : offset + rest.length ≤ 2 ^ 64) :
    ∃ r, (exec (sendParts client loaderId signedTx holderAccount operator rest offset receipts)
      calls).1 = .ok r := by
  induction hn : rest.length using Nat.strong_induction_on
    generalizing rest offset receipts calls with
  | _ n ih =>
    rcases eq_or_ne rest [] with rfl | hne
    · rw [exec_sendParts_nil]
      exact ⟨receipts, rfl⟩
    · have hpos : 0 < rest.length := List.length_pos_iff.mpr hne
      have hoffset : toBytesLittle offset 8 = .ok (leBytes 8 offset) :=
        toBytesLittle_natCast (by omega)
      obtain ⟨ix, hix⟩ : ∃ ix, makeWriteHolder operator.pubkey loaderId holderAccount
          signedTx.hash offset (rest.take 920) = .ok ix := by
        rw [makeWriteHolder, hoffset]
        exact ⟨_, rfl⟩
      obtain ⟨sig, hsig⟩ := hnode calls (sendCall operator ix)
      rw [exec_sendParts hne, hix]
      dsimp only
      rw [hsig]
      refine ih _ ?_ (rest.drop 920) _ _ _ ?_ rfl
      · rw [List.length_drop]
        omega
      · rw [List.length_take, List.length_drop]
        omega

-- ---------------------------------------------------------------------------
-- Landing
-- ---------------------------------------------------------------------------

/-- Landed instructions write the segments they carry. -/
theorem land_landing (program : HolderProgram) {hash : Bytes} {landed : List Instruction}
    {segs : List (Segment UInt8)} (h : List.Forall₂ (Carries hash) landed segs) (buf : Bytes) :
    Landing segs buf (program.land buf landed) := by
  induction h generalizing buf with
  | nil => exact .nil buf
  | cons hcarries _ ih => exact .cons (program.process_writes _ _ _ _ hcarries) (ih _)

/-- Instructions drawn from `sent` carry segments drawn from `segs`. -/
theorem exists_segments {hash : Bytes} {sent landed : List Instruction}
    {segs : List (Segment UInt8)} (h : List.Forall₂ (Carries hash) sent segs)
    (hsub : ∀ ix ∈ landed, ix ∈ sent) :
    ∃ segs', List.Forall₂ (Carries hash) landed segs' ∧ ∀ s ∈ segs', s ∈ segs := by
  induction landed with
  | nil => exact ⟨[], .nil, nofun⟩
  | cons ix landed ih =>
    rw [List.forall_mem_cons] at hsub
    obtain ⟨segs', hall, hmem⟩ := ih hsub.2
    obtain ⟨s, hs, hcarries⟩ := exists_related h hsub.1
    exact ⟨s :: segs', .cons hcarries hall, List.forall_mem_cons.mpr ⟨hs, hmem⟩⟩

theorem pairwise_disjoint_of_carries {hash : Bytes} {sent : List Instruction}
    {segs : List (Segment UInt8)} (h : List.Forall₂ (Carries hash) sent segs)
    (hd : segs.Pairwise Segment.Disjoint) :
    sent.Pairwise fun a b => ∀ s t, Carries hash a s → Carries hash b t → s.Disjoint t := by
  induction h with
  | nil => exact .nil
  | cons hcarries hrest ih =>
    rw [List.pairwise_cons] at hd
    refine .cons ?_ (ih hd.2)
    intro b hb s t hs ht
    obtain ⟨u, hu, hcarried⟩ := exists_related hrest hb
    rw [hs.unique hcarries, ht.unique hcarried]
    exact hd.1 u hu

-- ---------------------------------------------------------------------------
-- The upload
-- ---------------------------------------------------------------------------

/-- Every instruction was sent: the run came to its confirmations, or to its end. -/
def SentAll (out : Except PyError Unit × List RpcCall) : Prop :=
  out.1 = .ok () ∨ ∃ c ∈ out.2, c.IsConfirm

/-- What an upload promises of the calls it made, whatever becomes of them. -/
structure UploadCorrect (program : HolderProgram) (signedTx : SignedTransaction)
    (calls : List RpcCall) : Prop where
  /-- all is sent, unconfirmed, before the first confirmation is asked for -/
  unconfirmed : ∃ sends confirms, calls = sends ++ confirms ∧
    (∀ c ∈ sends, ∃ trx signer opts,
      c = .sendTransaction trx signer opts ∧ opts.skipConfirmation = true) ∧
    ∀ c ∈ confirms, c.IsConfirm
  wellFormed : ∀ ix ∈ sentInstructions calls, ∃ s, Carries signedTx.hash ix s ∧
    1 ≤ s.payload.length ∧ s.payload.length ≤ 920
  disjoint : (sentInstructions calls).Pairwise fun a b =>
    ∀ s t, Carries signedTx.hash a s → Carries signedTx.hash b t → s.Disjoint t
  covers : ∀ i, (∃ ix ∈ sentInstructions calls, ∃ s, Carries signedTx.hash ix s ∧ s.Covers i) ↔
    i < signedTx.rawTransaction.length
  /-- any landing of exactly the sent instructions, in any order and with any
  repetitions, on any buffer -/
  landed : ∀ (buf : Bytes) (landed : List Instruction),
    (∀ ix, ix ∈ landed ↔ ix ∈ sentInstructions calls) →
    (program.land buf landed).take signedTx.rawTransaction.length = signedTx.rawTransaction ∧
    (program.land buf landed).drop signedTx.rawTransaction.length =
      buf.drop signedTx.rawTransaction.length

/-- The promise, from a tiling and the instructions that carry it. -/
theorem uploadCorrect_of_tiles (program : HolderProgram) {sent : List Instruction}
    {segs : List (Segment UInt8)} {confirms : List RpcCall}
    (hcarries : List.Forall₂ (Carries signedTx.hash) sent segs)
    (htiles : Tiles 920 0 signedTx.rawTransaction segs)
    (hconfirms : ∀ c ∈ confirms, c.IsConfirm) :
    UploadCorrect program signedTx (sent.map (sendCall operator) ++ confirms) := by
  have hsent : sentInstructions (sent.map (sendCall operator) ++ confirms) = sent := by
    rw [sentInstructions_append, sentInstructions_sends, sentInstructions_confirms hconfirms,
      List.append_nil]
  have hcovers (i : Nat) : (∃ ix ∈ sent, ∃ s, Carries signedTx.hash ix s ∧ s.Covers i) ↔
      i < signedTx.rawTransaction.length := by
    have htiled := htiles.covers_iff i
    simp only [Nat.zero_le, true_and, Nat.zero_add] at htiled
    rw [← htiled]
    constructor
    · rintro ⟨ix, hix, s, hs, hc⟩
      obtain ⟨t, ht, hcarried⟩ := exists_related hcarries hix
      exact ⟨t, ht, hs.unique hcarried ▸ hc⟩
    · rintro ⟨s, hs, hc⟩
      obtain ⟨ix, hix, hcarried⟩ := exists_related_right hcarries hs
      exact ⟨ix, hix, s, hcarried, hc⟩
  refine ⟨⟨_, confirms, rfl, ?_, hconfirms⟩, ?_, ?_, ?_, ?_⟩
  · intro c hc
    obtain ⟨ix, _, rfl⟩ := List.mem_map.mp hc
    exact ⟨_, _, _, rfl, rfl⟩
  all_goals rw [hsent]
  · intro ix hix
    obtain ⟨s, hs, hcarried⟩ := exists_related hcarries hix
    obtain ⟨hpos, hle⟩ := htiles.length_le s hs
    exact ⟨s, hcarried, hpos, hle⟩
  · exact pairwise_disjoint_of_carries hcarries htiles.pairwise_disjoint
  · exact hcovers
  · intro buf landed hlanded
    obtain ⟨segs', hcarries', hsub⟩ := exists_segments hcarries fun ix hix => (hlanded ix).mp hix
    have hlanding := land_landing program hcarries' buf
    have hof : ∀ s ∈ segs', s.Of signedTx.rawTransaction :=
      fun s hs => htiles.of_target s (hsub s hs)
    refine ⟨hlanding.take_eq hof ?_, hlanding.drop_eq hof⟩
    intro i hi
    obtain ⟨ix, hix, s, hs, hc⟩ := (hcovers i).mpr hi
    obtain ⟨t, ht, hcarried⟩ := exists_related hcarries' ((hlanded ix).mpr hix)
    exact ⟨t, ht, hs.unique hcarried ▸ hc⟩

/-- **Order- and duplicate-insensitive.** Once an upload has sent its instructions
the holder ends with the transaction, and with nothing else changed, however they
land; and a node that answers gets them all, for every transaction whose offsets
fit their eight bytes. -/
theorem upload_lands_anyhow (program : HolderProgram) (client : SolanaClient)
    (loaderId holderAccount : Pubkey) (operator : Keypair) (signedTx : SignedTransaction) :
    let out := exec
      (writeTransactionToHolderAccount client loaderId signedTx holderAccount operator) []
    (SentAll out → UploadCorrect program signedTx out.2) ∧
    ((∀ calls call, ∃ sig, client.onSend calls call = .ok sig) →
      signedTx.rawTransaction.length ≤ 2 ^ 64 → SentAll out) := by
  obtain ⟨sent, segs, hcalls, hcarries, htiles⟩ := @sendParts_sent client loaderId holderAccount
    operator signedTx signedTx.rawTransaction 0 [] []
  have htotal := @sendParts_total client loaderId holderAccount operator signedTx
  rw [List.nil_append] at hcalls
  rw [writeTransactionToHolderAccount, exec_bind]
  rcases hrun : exec (sendParts client loaderId signedTx holderAccount operator
    signedTx.rawTransaction (0 : Nat) []) [] with ⟨e | receipts, calls⟩
  all_goals
    rw [hrun] at hcalls htiles
    subst hcalls
    rw [Int.natCast_zero] at hrun
  · -- a send failed: nothing was confirmed, so not all was sent
    refine ⟨?_, ?_⟩
    · rintro (h | ⟨c, hc, hconfirm⟩)
      · cases h
      · obtain ⟨ix, _, rfl⟩ := List.mem_map.mp hc
        exact hconfirm.elim
    · intro hnode hfit
      obtain ⟨r, hr⟩ := htotal hnode signedTx.rawTransaction 0 [] [] (by omega)
      rw [Int.natCast_zero, hrun] at hr
      cases hr
  · obtain ⟨confirms, hend, hall, hany⟩ :=
      confirmParts_calls client receipts (sent.map (sendCall operator))
    show (SentAll (exec (confirmParts client receipts) _) →
      UploadCorrect program signedTx (exec (confirmParts client receipts) _).2) ∧
      (_ → _ → SentAll (exec (confirmParts client receipts) _))
    refine ⟨?_, ?_⟩
    · intro _
      rw [hend]
      exact uploadCorrect_of_tiles program hcarries (htiles receipts rfl) hall
    · intro _ _
      rcases hany with hok | hne
      · exact .inl hok
      · obtain ⟨c, hc⟩ := List.exists_mem_of_ne_nil confirms hne
        exact .inr ⟨c, hend ▸ List.mem_append_right _ hc, hall c hc⟩

/-- A node that answers every call. -/
def answeringClient : SolanaClient where
  onSend _ _ := .ok (Vector.replicate 64 0)
  onConfirm _ _ := .ok ()

/-- One byte more than a part holds. -/
def twoPartTx : SignedTransaction where
  rawTransaction := List.replicate 921 7
  hash := List.replicate 32 1
  length_hash := List.length_replicate

def sampleKey (n : UInt8) : Pubkey := ⟨Vector.replicate 32 n⟩

theorem upload_lands_anyhow_twoParts :
    UploadCorrect .zeroFilling twoPartTx (exec (writeTransactionToHolderAccount answeringClient
      (sampleKey 1) twoPartTx (sampleKey 2) ⟨sampleKey 3⟩) []).2 := by
  obtain ⟨hcorrect, hall⟩ := upload_lands_anyhow .zeroFilling answeringClient (sampleKey 1)
    (sampleKey 2) ⟨sampleKey 3⟩ twoPartTx
  have hfit : twoPartTx.rawTransaction.length ≤ 2 ^ 64 := by
    show (List.replicate 921 (7 : UInt8)).length ≤ 2 ^ 64
    rw [List.length_replicate]
    omega
  exact hcorrect (hall (fun _ _ => ⟨_, rfl⟩) hfit)

end NeonTests.Holder
