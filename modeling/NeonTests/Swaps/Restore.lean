import NeonTests.Swaps.Definitions

/-!
# The swap load test — nothing is restored

Two of the three things the file should bring back are lost, each on its own.

* `deployTokens_saved` — the Solana account is written as its 32-byte secret and read as
  a 64-byte keypair, which raises;
* `deploy_users` — the saved users are looked up in the dictionary that has just replaced
  the one from the file, so there never are any, and `onStart_of_deploy` creates every account;
* `never_restored` — the next run restores the saved state for no input.
-/

namespace NeonTests.Swaps

open Endian Fallible Python

variable {A K C : Type} {keys : Keys A K} {chain : Chain A K C} {d : Deployment A K C}
  {w w' : World} {env : Environment A K C} {users : Dict String A}

-- ---------------------------------------------------------------------------
-- Two runs
-- ---------------------------------------------------------------------------

/-- The end of one run: what it works with is saved at the start, its users when it stops. -/
def saveRun (keys : Keys A K) (chain : Chain A K C) (d : Deployment A K C)
    (users : Dict String A) (w : World) : Except PyError World := do
  let started ← saveContracts keys chain d w
  saveUsers keys users started.2

/-- The next run, started where the file is: it returns with the same signer and Solana
account, and the user of every saved index gets the saved account, whatever account would
be created for it. -/
def Restored (keys : Keys A K) (chain : Chain A K C) (signer : A) (solanaAccount : K)
    (users : Dict String A) (w : World) : Prop :=
  ∃ env w', deployUniswapContracts keys chain w = .ok (env, w') ∧
    env.uniswap.get? "signer" = some (.account signer) ∧
    env.uniswap.get? "solana_account" = some (.keypair solanaAccount) ∧
    ∀ (index : Nat) (account created : A), users.get? (toString index) = some account →
      (onStart keys created index env.users).1 = account

-- ---------------------------------------------------------------------------
-- The file
-- ---------------------------------------------------------------------------

theorem load_write (w : World) (data : Data) : (w.write data).load = data := by
  simp only [World.load, World.write, Function.update_self]

theorem data_users (d : Deployment A K C) : savedUsers d.data = Dict.empty := by
  have hnone : d.data.get? "users" = none := by
    refine Dict.get?_ofList_eq_none.mpr ?_
    simp
  rw [savedUsers, hnone]

theorem saveContracts_eq (keys : Keys A K) (chain : Chain A K C) (d : Deployment A K C)
    (w : World) :
    saveContracts keys chain d w = .ok (⟨d.data, Dict.empty⟩, w.write (d.saved keys chain)) := by
  unfold saveContracts loadUsers
  rw [data_users]
  rfl

theorem saveUsers_write (w : World) (data : Data) :
    saveUsers keys users (w.write data) =
      .ok (w.write { data with users := some (usersData keys users) }) := by
  unfold saveUsers World.write
  simp only [Function.update_self, Function.update_idem]

/-- A run leaves all it was told to save. -/
theorem saveRun_eq :
    saveRun keys chain d users w =
      .ok (w.write { d.saved keys chain with users := some (usersData keys users) }) := by
  rw [saveRun, saveContracts_eq, ok_bind]
  exact saveUsers_write w _

-- ---------------------------------------------------------------------------
-- The Solana account
-- ---------------------------------------------------------------------------

theorem nodup_tokenNames : (Token.all.map Token.name).Nodup := by decide

/-- There are always token contracts to load. -/
theorem givenItems_saved (d : Deployment A K C) :
    givenItems (d.saved keys chain).tokenContracts = (d.saved keys chain).tokenContracts := by
  have hitems : (Dict.ofList (Token.all.map fun t =>
      (t.name, chain.address (d.tokenContracts t)))).items ≠ [] := by
    rw [Dict.ofList_of_nodup (by rw [List.map_map]; exact nodup_tokenNames)]
    exact List.cons_ne_nil _ _
  unfold givenItems Deployment.saved
  rw [Option.filter_some, if_pos (by simpa using hitems)]

/-- What is saved is the secret alone, and `from_bytes` wants the public key behind it. -/
theorem deployTokens_saved (hsecret : ∀ k, (keys.secret k).length = 32)
    (hfromBytes : ∀ bs, bs.length ≠ 64 → keys.fromBytes bs = .error .valueError)
    (next : Chain A K C) (saved : Option (Dict String String)) (signer : A) :
    deployTokens keys next { d.saved keys chain with users := saved } signer =
      .error .valueError := by
  have hraises : keys.fromBytes (keys.secret d.solanaAccount) = .error .valueError := by
    apply hfromBytes
    rw [hsecret]
    omega
  unfold deployTokens
  rw [givenItems_saved]
  simp only [Deployment.saved, solanaText, ok_bind, fromHex_hex, hraises, error_bind]

theorem deploy_saved_raises (hsecret : ∀ k, (keys.secret k).length = 32)
    (hfromBytes : ∀ bs, bs.length ≠ 64 → keys.fromBytes bs = .error .valueError)
    {next : Chain A K C} {saved : Option (Dict String String)} {result : Environment A K C × World}
    (hload : w.load = { d.saved keys chain with users := saved }) :
    deployUniswapContracts keys next w ≠ .ok result := by
  intro h
  obtain ⟨signer, -, h⟩ := bind_eq_ok.mp h
  obtain ⟨held, htokens, -⟩ := bind_eq_ok.mp h
  rw [hload] at htokens
  rw [deployTokens_saved hsecret hfromBytes] at htokens
  cases htokens

-- ---------------------------------------------------------------------------
-- The users
-- ---------------------------------------------------------------------------

/-- A run that starts has no users and a file without them, whatever the file said. -/
theorem deploy_users (h : deployUniswapContracts keys chain w = .ok (env, w')) :
    env.users = Dict.empty ∧ w'.load.users = none := by
  obtain ⟨signer, -, h⟩ := bind_eq_ok.mp h
  obtain ⟨held, -, h⟩ := bind_eq_ok.mp h
  obtain ⟨factory, -, h⟩ := bind_eq_ok.mp h
  obtain ⟨router, -, h⟩ := bind_eq_ok.mp h
  obtain ⟨pairs, -, h⟩ := bind_eq_ok.mp h
  rw [saveContracts_eq] at h
  cases h
  exact ⟨rfl, by rw [load_write]; rfl⟩

/-- The first user of every index gets a new account, whatever the libraries do. -/
theorem onStart_of_deploy (h : deployUniswapContracts keys chain w = .ok (env, w'))
    (index : Nat) (created : A) : (onStart keys created index env.users).1 = created := by
  rw [(deploy_users h).1]
  rfl

/-- **Nothing is restored.** For every signer, Solana account, contracts and users of a run,
and whatever the chain answers to the next one. -/
theorem never_restored (keys : Keys A K) (hsecret : ∀ k, (keys.secret k).length = 32)
    (hfromBytes : ∀ bs, bs.length ≠ 64 → keys.fromBytes bs = .error .valueError)
    (chain next : Chain A K C) (d : Deployment A K C) (users : Dict String A) (w : World) :
    ∃ saved, saveRun keys chain d users w = .ok saved ∧
      ¬ Restored keys next d.signer d.solanaAccount users saved := by
  refine ⟨_, saveRun_eq, ?_⟩
  rintro ⟨env, w', hdeploy, -⟩
  exact deploy_saved_raises hsecret hfromBytes (load_write w _) hdeploy

section Sample

/-- A keypair is its 64 bytes, the secret first. -/
def sampleKeys : Keys String { bs : Bytes // bs.length = 64 } where
  keyHex account := account
  fromKey
    | .text key => .ok key
    | .account _ => .error .typeError
  secret k := k.val.take 32
  fromBytes bs := if h : bs.length = 64 then .ok ⟨bs, h⟩ else .error .valueError

def sampleKeypair : { bs : Bytes // bs.length = 64 } := ⟨List.replicate 64 7, rfl⟩

/-- Contracts are their addresses, and every request is answered. -/
def sampleChain : Chain String { bs : Bytes // bs.length = 64 } String where
  address c := c
  newAccount := .ok "0x02"
  newKeypair := sampleKeypair
  loadToken _ _ _ address := .ok address
  deployToken _ _ token := .ok token.name
  loadFactory address := .ok address
  deployFactory _ := .ok "factory"
  loadRouter address := .ok address
  deployRouter _ _ _ := .ok "router"
  loadPairs _ _ := .ok Dict.empty
  createPairs _ _ _ _ := .ok Dict.empty

def sampleRun : Deployment String { bs : Bytes // bs.length = 64 } String :=
  ⟨"0x01", sampleKeypair, "router", "factory", Token.name, Dict.empty⟩

theorem length_sampleSecret (k : { bs : Bytes // bs.length = 64 }) :
    (sampleKeys.secret k).length = 32 := by
  show (k.val.take 32).length = 32
  rw [List.length_take, k.property]
  rfl

theorem sampleFromBytes (bs : Bytes) (h : bs.length ≠ 64) :
    sampleKeys.fromBytes bs = .error .valueError := dif_neg h

theorem never_restored_sample :
    ∃ saved, saveRun sampleKeys sampleChain sampleRun (Dict.ofList [("1", "0x03")])
        ⟨"/root", fun _ => none⟩ = .ok saved ∧
      ¬ Restored sampleKeys sampleChain "0x01" sampleKeypair (Dict.ofList [("1", "0x03")]) saved :=
  never_restored sampleKeys length_sampleSecret sampleFromBytes sampleChain sampleChain sampleRun
    (Dict.ofList [("1", "0x03")]) ⟨"/root", fun _ => none⟩

/-- A signer, a Solana account and one user: the next run raises. -/
theorem sample_not_restored :
    ¬ ∀ saved, saveRun sampleKeys sampleChain sampleRun (Dict.ofList [("1", "0x03")])
        ⟨"/root", fun _ => none⟩ = .ok saved →
      Restored sampleKeys sampleChain "0x01" sampleKeypair (Dict.ofList [("1", "0x03")]) saved := by
  intro h
  obtain ⟨env, w', hdeploy, -⟩ := h _ saveRun_eq
  exact deploy_saved_raises length_sampleSecret sampleFromBytes (load_write _ _) hdeploy

end Sample

end NeonTests.Swaps
