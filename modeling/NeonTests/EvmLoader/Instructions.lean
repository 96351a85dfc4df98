import NeonTests.EvmLoader.Definitions
import NeonTests.Holder.Create
import NeonTests.Holder.Definitions

/-!
# The instructions of the loader — their data

The remaining `make_…` functions of `utils/instructions.py`, and `delete_holder` of
`neon_evm/utils/storage.py`. The data of an instruction begin with a tag, and nothing between the
fields says where they end: those in front are of fixed lengths, and only the last may vary.

* `Request`, `Request.instruction` — what the loader is asked, by the function that asks it;
* `decode_instruction` — the data say which request it was.
-/

namespace NeonTests.EvmLoader

open Endian Fallible Holder Python Solana

-- ---------------------------------------------------------------------------
-- Instructions
-- ---------------------------------------------------------------------------

def makeExecuteTrxFromInstruction (operator : Keypair) (operatorBalance holderAddress
    evmLoaderId : Pubkey) (treasury : TreasuryPool) (message : Bytes)
    (additionalAccounts : List Pubkey) (tag : UInt8) : Instruction where
  programId := evmLoaderId
  data := [tag] ++ treasury.buffer ++ message
  accounts := stepAccounts operator operatorBalance holderAddress treasury additionalAccounts

def makeExecuteTrxFromAccount (operator : Keypair) (operatorBalance evmLoaderId
    holderAddress : Pubkey) (treasury : TreasuryPool) (additionalAccounts : List Pubkey)
    (additionalSigners : List Keypair) (tag : UInt8) : Instruction where
  programId := evmLoaderId
  data := [tag] ++ treasury.buffer
  accounts := stepAccounts operator operatorBalance holderAddress treasury additionalAccounts ++
    additionalSigners.map fun acc =>
      { pubkey := acc.pubkey, isSigner := true, isWritable := true }

def makeCancel (evmLoaderId storageAddress : Pubkey) (operator : Keypair)
    (operatorBalance : Pubkey) (hash : Bytes) (additionalAccounts : List Pubkey) :
    Instruction where
  programId := evmLoaderId
  data := [0x37] ++ hash
  accounts := [
    { pubkey := storageAddress, isSigner := false, isWritable := true },
    { pubkey := operator.pubkey, isSigner := true, isWritable := true },
    { pubkey := operatorBalance, isSigner := false, isWritable := true }] ++
    additionalAccounts.map fun acc => { pubkey := acc, isSigner := false, isWritable := true }

def makeDepositV03 (etherAddress : Bytes) (chainId : Int) (balanceAccount contractAccount mint
    source pool tokenProgram operatorPubkey evmLoaderId : Pubkey) :
    Except PyError Instruction := do
  let chain ← toBytesLittle chainId 8
  return {
    programId := evmLoaderId
    data := [0x31] ++ etherAddress ++ chain
    accounts := [
      { pubkey := mint, isSigner := false, isWritable := true },
      { pubkey := source, isSigner := false, isWritable := true },
      { pubkey := pool, isSigner := false, isWritable := true },
      { pubkey := balanceAccount, isSigner := false, isWritable := true },
      { pubkey := contractAccount, isSigner := false, isWritable := true },
      { pubkey := tokenProgram, isSigner := false, isWritable := false },
      { pubkey := operatorPubkey, isSigner := true, isWritable := true },
      { pubkey := systemProgram, isSigner := false, isWritable := false }] }

def makeCreateBalanceAccount (evmLoaderId senderPubkey : Pubkey) (etherAddress : Bytes)
    (accountPubkey contractPubkey : Pubkey) (chainId : Int) : Except PyError Instruction := do
  let chain ← toBytesLittle chainId 8
  return {
    programId := evmLoaderId
    data := [0x30] ++ etherAddress ++ chain
    accounts := [
      { pubkey := senderPubkey, isSigner := true, isWritable := true },
      { pubkey := systemProgram, isSigner := false, isWritable := false },
      { pubkey := accountPubkey, isSigner := false, isWritable := true },
      { pubkey := contractPubkey, isSigner := false, isWritable := true }] }

/-- The instruction of the transaction that `make_OperatorBalanceAccount` returns. -/
def makeOperatorBalanceAccount (operatorKeypair : Keypair) (operatorBalancePubkey : Pubkey)
    (etherBytes : Bytes) (chainId : Int) (evmLoaderId : Pubkey) : Except PyError Instruction := do
  let chain ← toBytesLittle chainId 8
  return {
    programId := evmLoaderId
    data := [0x3A] ++ etherBytes ++ chain
    accounts := [
      { pubkey := operatorKeypair.pubkey, isSigner := true, isWritable := true },
      { pubkey := systemProgram, isSigner := false, isWritable := true },
      { pubkey := operatorBalancePubkey, isSigner := false, isWritable := true }] }

/-- The instruction of `delete_holder`; keys are compared by their public halves. -/
def deleteHolder (delKey : Pubkey) (acc signer : Keypair) (evmLoaderId : Pubkey) :
    Instruction where
  programId := evmLoaderId
  data := [0x25]
  accounts := [
    { pubkey := delKey, isSigner := false, isWritable := true },
    { pubkey := acc.pubkey, isSigner := signer = acc, isWritable := true }]

-- ---------------------------------------------------------------------------
-- Requests
-- ---------------------------------------------------------------------------

/-- What the loader is asked to do. Those that execute a transaction name the treasury's
buffer, and have a second form with a tag of its own. -/
inductive Request
  | createHolder (seed : Bytes)
  | deleteHolder
  | writeHolder (hash : Bytes) (offset : Nat) (payload : Bytes)
  | createBalanceAccount (ether : Bytes) (chainId : Nat)
  | deposit (ether : Bytes) (chainId : Nat)
  | executeFromAccount (solanaCall : Bool) (buffer : Bytes)
  | stepFromInstruction (buffer : Bytes) (stepCount index : Nat) (message : Bytes)
  | stepFromAccount (noChainId : Bool) (buffer : Bytes) (stepCount index : Nat)
  | cancel (hash : Bytes)
  | createOperatorBalance (ether : Bytes) (chainId : Nat)
  | executeFromInstruction (solanaCall : Bool) (buffer message : Bytes)
  deriving DecidableEq, Repr

/-- The keys an instruction names beside what it asks. -/
structure Parties where
  evmLoaderId : Pubkey
  operator : Keypair
  operatorBalance : Pubkey
  holder : Pubkey
  treasuryAccount : Pubkey
  balanceAccount : Pubkey
  contractAccount : Pubkey
  mint : Pubkey
  source : Pubkey
  pool : Pubkey
  tokenProgram : Pubkey
  additionalAccounts : List Pubkey
  additionalSigners : List Keypair
  deriving DecidableEq, Repr

def Request.instruction (parties : Parties) : Request → Except PyError Instruction
  | createHolder seed =>
    .ok (makeCreateHolderAccount parties.holder parties.operator.pubkey seed parties.evmLoaderId)
  | deleteHolder =>
    .ok (EvmLoader.deleteHolder parties.holder parties.operator parties.operator
      parties.evmLoaderId)
  | writeHolder hash offset payload =>
    makeWriteHolder parties.operator.pubkey parties.evmLoaderId parties.holder hash offset payload
  | createBalanceAccount ether chainId =>
    makeCreateBalanceAccount parties.evmLoaderId parties.operator.pubkey ether
      parties.balanceAccount parties.contractAccount chainId
  | deposit ether chainId =>
    makeDepositV03 ether chainId parties.balanceAccount parties.contractAccount parties.mint
      parties.source parties.pool parties.tokenProgram parties.operator.pubkey
      parties.evmLoaderId
  | executeFromAccount solanaCall buffer =>
    .ok (makeExecuteTrxFromAccount parties.operator parties.operatorBalance parties.evmLoaderId
      parties.holder ⟨parties.treasuryAccount, buffer⟩ parties.additionalAccounts
      parties.additionalSigners (if solanaCall then 0x39 else 0x33))
  | stepFromInstruction buffer stepCount index message =>
    makePartialCallOrContinueFromRawEthereumTX index stepCount message parties.operator
      parties.operatorBalance parties.evmLoaderId parties.holder
      ⟨parties.treasuryAccount, buffer⟩ parties.additionalAccounts 0x34
  | stepFromAccount noChainId buffer stepCount index =>
    makeExecuteTrxFromAccountDataIterativeOrContinue index stepCount parties.operator
      parties.operatorBalance parties.evmLoaderId parties.holder
      ⟨parties.treasuryAccount, buffer⟩ parties.additionalAccounts
      (if noChainId then 0x36 else 0x35)
  | cancel hash =>
    .ok (makeCancel parties.evmLoaderId parties.holder parties.operator parties.operatorBalance
      hash parties.additionalAccounts)
  | createOperatorBalance ether chainId =>
    makeOperatorBalanceAccount parties.operator parties.operatorBalance ether chainId
      parties.evmLoaderId
  | executeFromInstruction solanaCall buffer message =>
    .ok (makeExecuteTrxFromInstruction parties.operator parties.operatorBalance parties.holder
      parties.evmLoaderId ⟨parties.treasuryAccount, buffer⟩ message parties.additionalAccounts
      (if solanaCall then 0x3E else 0x3D))

/-- Addresses, hashes and the treasury's buffer have their lengths, and no seed is longer than
its length can say. -/
def Request.WellFormed : Request → Prop
  | createHolder seed => seed.length < 256 ^ 8
  | deleteHolder => True
  | writeHolder hash _ _ => hash.length = 32
  | createBalanceAccount ether _ => ether.length = 20
  | deposit ether _ => ether.length = 20
  | executeFromAccount _ buffer => buffer.length = 4
  | stepFromInstruction buffer _ _ _ => buffer.length = 4
  | stepFromAccount _ buffer _ _ => buffer.length = 4
  | cancel hash => hash.length = 32
  | createOperatorBalance ether _ => ether.length = 20
  | executeFromInstruction _ buffer _ => buffer.length = 4

/-- What the data ask for, read from the front. -/
def decode : Bytes → Option Request
  | [] => none
  | tag :: body =>
    if tag = 0x24 then some (.createHolder ((body.drop 8).take (leNat (body.take 8))))
    else if tag = 0x25 then some .deleteHolder
    else if tag = 0x26 then
      some (.writeHolder (body.take 32) (leNat ((body.drop 32).take 8)) (body.drop 40))
    else if tag = 0x30 then some (.createBalanceAccount (body.take 20) (leNat (body.drop 20)))
    else if tag = 0x31 then some (.deposit (body.take 20) (leNat (body.drop 20)))
    else if tag = 0x33 then some (.executeFromAccount false body)
    else if tag = 0x34 then
      some (.stepFromInstruction (body.take 4) (leNat ((body.drop 4).take 4))
        (leNat ((body.drop 8).take 4)) (body.drop 12))
    else if tag = 0x35 then
      some (.stepFromAccount false (body.take 4) (leNat ((body.drop 4).take 4))
        (leNat ((body.drop 8).take 4)))
    else if tag = 0x36 then
      some (.stepFromAccount true (body.take 4) (leNat ((body.drop 4).take 4))
        (leNat ((body.drop 8).take 4)))
    else if tag = 0x37 then some (.cancel body)
    else if tag = 0x39 then some (.executeFromAccount true body)
    else if tag = 0x3A then some (.createOperatorBalance (body.take 20) (leNat (body.drop 20)))
    else if tag = 0x3D then some (.executeFromInstruction false (body.take 4) (body.drop 4))
    else if tag = 0x3E then some (.executeFromInstruction true (body.take 4) (body.drop 4))
    else none

-- ---------------------------------------------------------------------------
-- The data say which
-- ---------------------------------------------------------------------------

variable {n : Nat}

/-- A number in front of the rest, read back. -/
theorem leNat_take {w : Nat} (hn : n < 256 ^ w) (rest : Bytes) :
    leNat ((leBytes w n ++ rest).take w) = n := by
  rw [List.take_left' (length_leBytes ..), leNat_leBytes hn]

/-- A number that fits, as the functions write it. -/
theorem toBytesLittle_ok {w : Nat} {bs : Bytes} (h : toBytesLittle (n : Int) w = .ok bs) :
    n < 256 ^ w ∧ bs = leBytes w n := by
  obtain ⟨⟨-, hlt⟩, rfl⟩ := toBytesLittle_eq_ok.mp h
  exact ⟨by simpa using hlt, rfl⟩

/-- An address and a chain. -/
theorem etherChain (ether : Bytes) (hether : ether.length = 20) (hn : n < 256 ^ 8) :
    (ether ++ leBytes 8 n).take 20 = ether ∧ leNat ((ether ++ leBytes 8 n).drop 20) = n := by
  rw [List.take_left' hether, List.drop_left' hether, leNat_leBytes hn]
  exact ⟨rfl, rfl⟩

/-- A buffer, two numbers and a message. -/
theorem stepFields (buffer : Bytes) (stepCount index : Nat) (message : Bytes)
    (hbuffer : buffer.length = 4) (hsteps : stepCount < 256 ^ 4) (hindex : index < 256 ^ 4) :
    let body := buffer ++ (leBytes 4 stepCount ++ (leBytes 4 index ++ message))
    body.take 4 = buffer ∧ leNat ((body.drop 4).take 4) = stepCount ∧
      leNat ((body.drop 8).take 4) = index ∧ body.drop 12 = message := by
  intro body
  have hfour : body.drop 4 = leBytes 4 stepCount ++ (leBytes 4 index ++ message) :=
    List.drop_left' hbuffer
  have height : body.drop 8 = leBytes 4 index ++ message := by
    rw [show body.drop 8 = (body.drop 4).drop 4 by rw [List.drop_drop], hfour,
      List.drop_left' (length_leBytes ..)]
  have htwelve : body.drop 12 = message := by
    rw [show body.drop 12 = (body.drop 8).drop 4 by rw [List.drop_drop], height,
      List.drop_left' (length_leBytes ..)]
  exact ⟨List.take_left' hbuffer, by rw [hfour, leNat_take hsteps],
    by rw [height, leNat_take hindex], htwelve⟩

/-- **The data say which.** What a request's instruction carries is read back as that request,
whoever the parties are. -/
theorem decode_instruction (request : Request) (parties : Parties) (ix : Instruction)
    (hwf : request.WellFormed) (h : request.instruction parties = .ok ix) :
    decode ix.data = some request := by
  cases request with
  | createHolder seed =>
    cases h
    have hseed : seed.length < 256 ^ 8 := hwf
    show some (Request.createHolder (((leBytes 8 seed.length ++ seed).drop 8).take
      (leNat ((leBytes 8 seed.length ++ seed).take 8)))) = _
    rw [leNat_take hseed, List.drop_left' (length_leBytes ..), List.take_length]
  | deleteHolder =>
    cases h
    rfl
  | writeHolder hash offset payload =>
    obtain ⟨d, hd, h⟩ := bind_eq_ok.mp h
    obtain ⟨hoffset, rfl⟩ := toBytesLittle_ok hd
    cases h
    have hhash : hash.length = 32 := hwf
    have hforty : (hash ++ leBytes 8 offset).length = 40 := by
      rw [List.length_append, hhash, length_leBytes]
    have hpayload : (hash ++ leBytes 8 offset ++ payload).drop 40 = payload :=
      List.drop_left' hforty
    have hrest : (hash ++ leBytes 8 offset ++ payload).drop 32 = leBytes 8 offset ++ payload := by
      rw [List.append_assoc, List.drop_left' hhash]
    have hfront : (hash ++ leBytes 8 offset ++ payload).take 32 = hash := by
      rw [List.append_assoc, List.take_left' hhash]
    show some (Request.writeHolder ((hash ++ leBytes 8 offset ++ payload).take 32)
      (leNat (((hash ++ leBytes 8 offset ++ payload).drop 32).take 8))
      ((hash ++ leBytes 8 offset ++ payload).drop 40)) = _
    rw [hfront, hrest, leNat_take hoffset, hpayload]
  | createBalanceAccount ether chainId =>
    obtain ⟨chain, hchain, h⟩ := bind_eq_ok.mp h
    obtain ⟨hlt, rfl⟩ := toBytesLittle_ok hchain
    cases h
    obtain ⟨hether, hnat⟩ := etherChain ether hwf hlt
    show some (Request.createBalanceAccount ((ether ++ leBytes 8 chainId).take 20)
      (leNat ((ether ++ leBytes 8 chainId).drop 20))) = _
    rw [hether, hnat]
  | deposit ether chainId =>
    obtain ⟨chain, hchain, h⟩ := bind_eq_ok.mp h
    obtain ⟨hlt, rfl⟩ := toBytesLittle_ok hchain
    cases h
    obtain ⟨hether, hnat⟩ := etherChain ether hwf hlt
    show some (Request.deposit ((ether ++ leBytes 8 chainId).take 20)
      (leNat ((ether ++ leBytes 8 chainId).drop 20))) = _
    rw [hether, hnat]
  | executeFromAccount solanaCall buffer =>
    cases h
    cases solanaCall <;> rfl
  | stepFromInstruction buffer stepCount index message =>
    obtain ⟨steps, hsteps, h⟩ := bind_eq_ok.mp h
    obtain ⟨indexBytes, hindex, h⟩ := bind_eq_ok.mp h
    obtain ⟨hstepsLt, rfl⟩ := toBytesLittle_ok hsteps
    obtain ⟨hindexLt, rfl⟩ := toBytesLittle_ok hindex
    cases h
    obtain ⟨hbuffer, hcount, hat, hmessage⟩ :=
      stepFields buffer stepCount index message hwf hstepsLt hindexLt
    have hbody : [0x34] ++ buffer ++ leBytes 4 stepCount ++ leBytes 4 index ++ message =
        0x34 :: (buffer ++ (leBytes 4 stepCount ++ (leBytes 4 index ++ message))) := by
      simp only [List.append_assoc, List.cons_append, List.nil_append]
    show decode ([0x34] ++ buffer ++ leBytes 4 stepCount ++ leBytes 4 index ++ message) = _
    rw [hbody]
    show some (Request.stepFromInstruction _ _ _ _) = _
    rw [hbuffer, hcount, hat, hmessage]
  | stepFromAccount noChainId buffer stepCount index =>
    obtain ⟨tag, htag, h⟩ := bind_eq_ok.mp h
    obtain ⟨steps, hsteps, h⟩ := bind_eq_ok.mp h
    obtain ⟨indexBytes, hindex, h⟩ := bind_eq_ok.mp h
    obtain ⟨hstepsLt, rfl⟩ := toBytesLittle_ok hsteps
    obtain ⟨hindexLt, rfl⟩ := toBytesLittle_ok hindex
    cases h
    obtain ⟨hbuffer, hcount, hat, -⟩ := stepFields buffer stepCount index [] hwf hstepsLt hindexLt
    rw [List.append_nil] at hbuffer hcount hat
    have hbody (t : UInt8) : [t] ++ buffer ++ leBytes 4 stepCount ++ leBytes 4 index =
        t :: (buffer ++ (leBytes 4 stepCount ++ leBytes 4 index)) := by
      simp only [List.append_assoc, List.cons_append, List.nil_append]
    cases noChainId with
    | false =>
      cases htag
      show decode ([0x35] ++ buffer ++ leBytes 4 stepCount ++ leBytes 4 index) = _
      rw [hbody]
      show some (Request.stepFromAccount false _ _ _) = _
      rw [hbuffer, hcount, hat]
    | true =>
      cases htag
      show decode ([0x36] ++ buffer ++ leBytes 4 stepCount ++ leBytes 4 index) = _
      rw [hbody]
      show some (Request.stepFromAccount true _ _ _) = _
      rw [hbuffer, hcount, hat]
  | cancel hash =>
    cases h
    rfl
  | createOperatorBalance ether chainId =>
    obtain ⟨chain, hchain, h⟩ := bind_eq_ok.mp h
    obtain ⟨hlt, rfl⟩ := toBytesLittle_ok hchain
    cases h
    obtain ⟨hether, hnat⟩ := etherChain ether hwf hlt
    show some (Request.createOperatorBalance ((ether ++ leBytes 8 chainId).take 20)
      (leNat ((ether ++ leBytes 8 chainId).drop 20))) = _
    rw [hether, hnat]
  | executeFromInstruction solanaCall buffer message =>
    cases h
    have hbuffer : buffer.length = 4 := hwf
    cases solanaCall with
    | false =>
      show some (Request.executeFromInstruction false ((buffer ++ message).take 4)
        ((buffer ++ message).drop 4)) = _
      rw [List.take_left' hbuffer, List.drop_left' hbuffer]
    | true =>
      show some (Request.executeFromInstruction true ((buffer ++ message).take 4)
        ((buffer ++ message).drop 4)) = _
      rw [List.take_left' hbuffer, List.drop_left' hbuffer]

def numberedKey (n : UInt8) : Pubkey := ⟨.replicate 32 n⟩

def sampleParties : Parties where
  evmLoaderId := numberedKey 1
  operator := ⟨numberedKey 2⟩
  operatorBalance := numberedKey 3
  holder := numberedKey 4
  treasuryAccount := numberedKey 5
  balanceAccount := numberedKey 6
  contractAccount := numberedKey 7
  mint := numberedKey 8
  source := numberedKey 9
  pool := numberedKey 10
  tokenProgram := numberedKey 11
  additionalAccounts := []
  additionalSigners := []

theorem decode_instruction_sampleParties :
    ∃ ix, (Request.stepFromAccount true [7, 0, 0, 0] 500 3).instruction sampleParties = .ok ix ∧
      decode ix.data = some (.stepFromAccount true [7, 0, 0, 0] 500 3) :=
  ⟨_, rfl, decode_instruction (.stepFromAccount true [7, 0, 0, 0] 500 3) sampleParties _ rfl rfl⟩

end NeonTests.EvmLoader
