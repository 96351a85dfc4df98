import NeonTests.WrappedToken.Books
import NeonTests.WrappedToken.Solvency

/-!
# Wrapped tokens — authorisation

The calls of a run that took effect, those made during a payout included, post to
the books one after another and leave them as the contract's storage is. So what
the books allow is what the contract allows.

* `effectsAll` — the calls that took effect, in order;
* `Booked` — the invariant of the middle of a call, with the books as they are;
* `dispatch_books`, `withdrawTo_books` — what a call does to the books;
* `execAll_posts` — a run, nested calls and all, is a run of the books;
* `authorised` — the result over whole runs.
-/

namespace NeonTests.WrappedToken

open Ledger Runs Scripts Solidity

variable {Address : Type} [DecidableEq Address] {token : Address}

-- ---------------------------------------------------------------------------
-- The calls that took effect
-- ---------------------------------------------------------------------------

/-- A payout stopped when its recipient would run: what the call had done by then
stays done. -/
def payStop (token recipient : Address) (wad : Uint256) : Contract Address Unit := do
  let funds ← read fun s => s.world.native token
  note (.payout funds wad)
  transferNative token recipient wad.toNat
  fail .empty

mutual

/-- A call that returned took effect before those made during its payout did. A call that
reverted took none, nor did any made during it. -/
def Action.effects (t : Token Address) : Action token → State Address → List (Call Address)
  | .move _ _ _, _ => []
  | .call sender value data callbacks accepts, s =>
    match exec (callToken t token (payNative t token (execAll t callbacks) accepts)
        ⟨sender, value⟩ data) s with
    | (.error _, _) => []
    | (.ok _, _) => ⟨⟨sender, value⟩, data⟩ ::
      match exec (callToken t token (payStop token) ⟨sender, value⟩ data) s with
      | (.ok _, _) => []
      | (.error _, stopped) => effectsAll t callbacks stopped

def effectsAll (t : Token Address) : List (Action token) → State Address → List (Call Address)
  | [], _ => []
  | a :: rest, s => a.effects t s ++ effectsAll t rest (a.exec t s)

end

-- ---------------------------------------------------------------------------
-- Statements
-- ---------------------------------------------------------------------------

def World.books (w : World Address) : Books Address where
  balanceOf a := (w.balanceOf a).toNat
  allowance src guy := (w.allowance src guy).toNat

theorem books_setBalance (w : World Address) (a : Address) (x : Uint256) :
    ({ w with balanceOf := Function.update w.balanceOf a x } : World Address).books =
      { w.books with balanceOf := Function.update w.books.balanceOf a x.toNat } := by
  simp only [World.books, toNat_update]

theorem books_setAllowance (w : World Address) (src guy : Address) (x : Uint256) :
    ({ w with
        allowance := Function.update w.allowance src
          (Function.update (w.allowance src) guy x) } : World Address).books =
      w.books.approved src guy x.toNat := by
  simp only [World.books, Books.approved, toNat_update_update]

variable [Fintype Address]

structure Booked (token : Address) (extra due : Nat) (b : Books Address) (s : State Address) :
    Prop extends Owes token extra due s where
  books : s.world.books = b

variable {extra due due' : Nat} {b : Books Address}

theorem credit_booked (ar : Arithmetic) (a : Address) (x : Uint256)
    (hdue : due + x.toNat = due') :
    Triple (Booked token extra due' b) (creditBalance ar a x)
      (fun _ => Booked token extra due (b.credited a x.toNat)) (fun _ => True) := by
  intro s h
  have hends := credit_settles ar a x hdue s h.toOwes
  have hfit : (s.world.balanceOf a).toNat + x.toNat < 2 ^ 256 := by
    have := h.balance_le a
    have := h.native_lt
    omega
  rw [exec_creditBalance ar hfit] at hends ⊢
  refine ⟨hends, ?_⟩
  rw [books_setBalance, h.books, BitVec.toNat_add, Nat.mod_eq_of_lt hfit, ← h.books]
  rfl

theorem debit_booked (ar : Arithmetic) (a : Address) (x : Uint256)
    (hdue : due + x.toNat = due') :
    Triple (fun s => Booked token extra due b s ∧ x ≤ s.world.balanceOf a) (debitBalance ar a x)
      (fun _ => Booked token extra due' (b.debited a x.toNat)) (fun _ => True) := by
  rintro s ⟨h, hx⟩
  have hends := debit_owes ar a x hdue s ⟨h.toOwes, hx⟩
  rw [exec_debitBalance ar hx] at hends ⊢
  refine ⟨hends, ?_⟩
  rw [books_setBalance, h.books, BitVec.toNat_sub_of_le hx, ← h.books]
  rfl

omit [DecidableEq Address] in
theorem emit_booked (e : Event Address) :
    Triple (Booked token extra due b) (emit e) (fun _ => Booked token extra due b)
      (fun _ => True) :=
  Triple.write fun _ h => ⟨⟨h.backed, h.supply, h.sound⟩, h.books⟩

/-- `allowance[src][guy] -= x` -/
theorem debitAllowance_booked (ar : Arithmetic) (src guy : Address) (x : Uint256) :
    Triple (fun s => Booked token extra due b s ∧ x ≤ s.world.allowance src guy)
      (debitAllowance ar src guy x)
      (fun _ => Booked token extra due (b.approved src guy (b.allowance src guy - x.toNat)))
      (fun _ => True) := by
  rintro s ⟨h, hx⟩
  have hends := debitAllowance_spec ar src guy x (fun _ => True) s
    ⟨⟨h.toOwes, trivial⟩, hx⟩
  rw [exec_debitAllowance ar hx] at hends ⊢
  refine ⟨hends.1, ?_⟩
  rw [books_setAllowance, BitVec.toNat_sub_of_le hx, ← h.books]
  rfl

-- ---------------------------------------------------------------------------
-- Functions
-- ---------------------------------------------------------------------------

/-- The allowances the code uses up are those the books do. -/
def Kind.Limits (k : Kind) (limited : Uint256 → Bool) : Prop :=
  ∀ allowed, limited allowed = true ↔ ¬ k.Unlimited allowed.toNat

variable {k : Kind}

theorem spendAllowance_booked (ar : Arithmetic) {limited : Uint256 → Bool}
    (hlimits : k.Limits limited) (src guy : Address) (wad : Uint256) :
    Triple (Booked token extra due b) (spendAllowance ar limited src guy wad)
      (fun _ s => ∃ spent, b.spend k src guy wad.toNat = some spent ∧
        Booked token extra due spent s) (fun _ => True) := by
  refine Triple.bind (fun allowed s => Booked token extra due b s ∧
    allowed = s.world.allowance src guy) (Triple.read fun _ h => ⟨h, rfl⟩) ?_
  intro allowed
  have hallowed (s : State Address) (h : Booked token extra due b s)
      (heq : allowed = s.world.allowance src guy) : b.allowance src guy = allowed.toNat := by
    rw [← h.books, heq]
    rfl
  refine Triple.ite (fun hused => ?_) (fun hfree => Triple.pure ?_)
  · refine Triple.bind _ (Triple.ensure fun _ _ => trivial) ?_
    rintro _ s ⟨⟨h, heq⟩, hle⟩
    have hlimited : ¬ k.Unlimited (b.allowance src guy) := by
      rw [hallowed s h heq]
      exact (hlimits allowed).mp hused.2
    have hfunds : wad.toNat ≤ b.allowance src guy := by
      rw [hallowed s h heq]
      exact hle
    have hspent := spend_limited hused.1 hlimited hfunds
    exact (debitAllowance_booked ar src guy wad).conseq (fun _ h => h)
      (fun _ _ hs => ⟨_, hspent, hs⟩) (fun _ h => h) s ⟨h, heq ▸ hle⟩
  · rintro s ⟨h, heq⟩
    refine ⟨b, spend_free _ ?_, h⟩
    rw [hallowed s h heq]
    by_contra hnone
    rw [not_or, ← hlimits] at hnone
    exact hfree hnone

/-- A transfer, as the books have it. -/
theorem transferFrom_booked (ar : Arithmetic) {limited : Uint256 → Bool}
    (hlimits : k.Limits limited) (msg : Msg Address) (src dst : Address) (wad : Uint256) :
    Triple (Booked token extra 0 b) (transferFrom ar limited msg src dst wad)
      (fun _ s => ∃ b', b.transferFrom k msg.sender src dst wad.toNat = some b' ∧
        Booked token extra 0 b' s) (fun _ => True) := by
  refine Triple.bind (fun balance s => Booked token extra 0 b s ∧ balance = s.world.balanceOf src)
    (Triple.read fun _ h => ⟨h, rfl⟩) ?_
  intro balance
  refine Triple.bind _ (Triple.ensure fun _ _ => trivial) ?_
  rintro _ s ⟨⟨h, rfl⟩, hle⟩
  have hbalance : wad.toNat ≤ b.balanceOf src := by
    rw [← h.books]
    exact hle
  refine Triple.bind _ (spendAllowance_booked ar hlimits src msg.sender wad) ?_ s h
  rintro _ s ⟨spent, hspent, h⟩
  have htransfer : b.transferFrom k msg.sender src dst wad.toNat =
      some ((spent.debited src wad.toNat).credited dst wad.toNat) := by
    rw [Books.transferFrom, if_pos hbalance, hspent]
    rfl
  have hfunds : wad ≤ s.world.balanceOf src := by
    have hbooks : (s.world.balanceOf src).toNat = spent.balanceOf src := by
      rw [← h.books]
      rfl
    rw [BitVec.le_def, hbooks, spend_balanceOf hspent]
    exact hbalance
  refine Triple.bind _ (debit_booked ar src wad rfl) ?_ s ⟨h, hfunds⟩
  intro _
  refine Triple.bind _ (credit_booked ar dst wad rfl) ?_
  intro _
  refine Triple.bind _ (emit_booked _) ?_
  exact fun _ => Triple.pure fun _ hs => ⟨_, htransfer, hs⟩

theorem deposit_booked (ar : Arithmetic) (msg : Msg Address) :
    Triple (Booked token extra msg.value.toNat b) (deposit ar msg)
      (fun _ => Booked token extra 0 (b.credited msg.sender msg.value.toNat)) (fun _ => True) :=
  Triple.bind _ (credit_booked ar msg.sender msg.value (Nat.zero_add _)) fun _ => emit_booked _

theorem approve_booked (msg : Msg Address) (guy : Address) (wad : Uint256) :
    Triple (Booked token extra 0 b) (approve msg guy wad)
      (fun _ => Booked token extra 0 (b.approved msg.sender guy wad.toNat)) (fun _ => True) := by
  refine Triple.bind (fun _ => Booked token extra 0 (b.approved msg.sender guy wad.toNat)) ?_ ?_
  · refine Triple.write ?_
    intro s h
    refine ⟨⟨h.backed, h.supply, h.sound⟩, ?_⟩
    show World.books { s.world with allowance := _ } = _
    rw [books_setAllowance, h.books]
  · intro _
    exact Triple.bind _ (emit_booked _) fun _ => Triple.pure fun _ h => h

omit [DecidableEq Address] in
theorem nonPayable_booked (msg : Msg Address) :
    Triple (Booked token extra msg.value.toNat b) (nonPayable msg)
      (fun _ => Booked token extra 0 b) (fun _ => True) := by
  refine (Triple.ensure fun _ _ => trivial).conseq (fun _ h => h) ?_ (fun _ h => h)
  rintro _ s ⟨h, hvalue⟩
  rw [hvalue] at h
  exact h

-- ---------------------------------------------------------------------------
-- The two contracts
-- ---------------------------------------------------------------------------

/-- The payout a call makes if it gets that far: its recipient and its amount. -/
def Kind.payout : Kind → Msg Address → Calldata Address → Option (Address × Uint256)
  | _, msg, .withdraw wad => some (msg.sender, wad)
  | .wNativeChainToken, _, .withdrawTo recipient wad => some (recipient, wad)
  | _, _, _ => none

def Kind.arithmetic : Kind → Arithmetic
  | .wneon => .unchecked
  | .wNativeChainToken => .checked

omit [Fintype Address] in
theorem dispatch_payout (token : Address) {msg : Msg Address} {data : Calldata Address}
    {recipient : Address} {wad : Uint256} (h : k.payout msg data = some (recipient, wad))
    (pay : Address → Uint256 → Contract Address Unit) :
    (k.code token).dispatch pay msg data =
        (do nonPayable msg; withdrawTo k.arithmetic pay msg recipient wad) ∧
      ∀ b : Books Address, b.post k ⟨msg, data⟩ = b.withdraw msg.sender wad.toNat := by
  rcases k with _ | _ <;> rcases data <;>
    simp only [Kind.payout, Option.some.injEq, Prod.mk.injEq, reduceCtorEq] at h <;>
    · obtain ⟨rfl, rfl⟩ := h
      exact ⟨rfl, fun _ => rfl⟩

omit [Fintype Address] in
theorem dispatch_noPayout {msg : Msg Address} {data : Calldata Address}
    (h : k.payout msg data = none) (pay pay' : Address → Uint256 → Contract Address Unit) :
    (k.code token).dispatch pay msg data = (k.code token).dispatch pay' msg data := by
  rcases k with _ | _ <;> rcases data <;>
    first | rfl | simp only [Kind.payout, reduceCtorEq] at h

/-- What a call that makes no payout leaves. -/
def Posted (k : Kind) (token : Address) (extra : Nat) (b : Books Address) (c : Call Address)
    (s : State Address) : Prop :=
  ∃ b', b.post k c = some b' ∧ Booked token extra 0 b' s

theorem Booked.posted {c : Call Address} {b' : Books Address} (hpost : b.post k c = some b')
    (h : Booked token extra 0 b' s) : Posted k token extra b c s :=
  ⟨b', hpost, h⟩

theorem nonPayable_posted {α : Type} {c : Call Address} {x : Contract Address α}
    {post : α → State Address → Prop} (hpost : ∀ a s, post a s → Posted k token extra b c s)
    (hx : Triple (Booked token extra 0 b) x post (fun _ => True)) :
    Triple (Booked token extra c.value.toNat b) (do nonPayable c.toMsg; discard x)
      (fun _ => Posted k token extra b c) (fun _ => True) := by
  refine Triple.bind _ (nonPayable_booked c.toMsg) ?_
  exact fun _ => Triple.bind _ hx fun a => Triple.pure fun s h => hpost a s h

theorem kind_limits_wneon : Kind.wneon.Limits fun allowed => decide (allowed ≠ -1) := by
  intro allowed
  have hlt := allowed.isLt
  show decide (allowed ≠ -1) = true ↔ ¬ 2 ^ 256 - 1 ≤ allowed.toNat
  rw [decide_eq_true_iff, Ne, ← BitVec.toNat_inj]
  show ¬ allowed.toNat = 2 ^ 256 - 1 ↔ _
  omega

theorem kind_limits_wNativeChainToken : Kind.wNativeChainToken.Limits fun _ => true :=
  fun _ => iff_of_true rfl not_false

/-- A call that makes no payout posts to the books. -/
theorem dispatch_posted (pay : Address → Uint256 → Contract Address Unit) {c : Call Address}
    (h : k.payout c.toMsg c.data = none) :
    Triple (Booked token extra c.value.toNat b) ((k.code token).dispatch pay c.toMsg c.data)
      (fun _ => Posted k token extra b c) (fun _ => True) := by
  obtain ⟨msg, data⟩ := c
  have hdeposit (ar : Arithmetic) (hpost : b.post k ⟨msg, data⟩ =
      some (b.credited msg.sender msg.value.toNat)) :
      Triple (Booked token extra msg.value.toNat b) (deposit ar msg)
        (fun _ => Posted k token extra b ⟨msg, data⟩) (fun _ => True) :=
    (deposit_booked ar msg).conseq (fun _ h => h) (fun _ _ hs => hs.posted hpost) (fun _ h => h)
  have hread {α : Type} (f : State Address → α) (hpost : b.post k ⟨msg, data⟩ = some b) :
      Triple (Booked token extra msg.value.toNat b)
        (do nonPayable msg; discard (read f : Contract Address α))
        (fun _ => Posted k token extra b ⟨msg, data⟩) (fun _ => True) :=
    nonPayable_posted (fun _ _ hs => Booked.posted hpost hs) (Triple.read fun _ hs => hs)
  rcases k with _ | _
  · rcases data with _ | _ | _ | wad | ⟨recipient, wad⟩ | _ | ⟨guy, wad⟩ | ⟨dst, wad⟩ |
      ⟨src, dst, wad⟩ | a | ⟨src, guy⟩
    · exact hdeposit .unchecked rfl
    · exact hdeposit .unchecked rfl
    · exact hdeposit .unchecked rfl
    · simp only [Kind.payout, reduceCtorEq] at h
    · exact hdeposit .unchecked rfl
    · exact hread _ rfl
    · exact nonPayable_posted (fun _ _ hs => Booked.posted rfl hs) (approve_booked msg guy wad)
    · exact nonPayable_posted (fun _ _ hs => hs)
        (transferFrom_booked .unchecked kind_limits_wneon msg msg.sender dst wad)
    · exact nonPayable_posted (fun _ _ hs => hs)
        (transferFrom_booked .unchecked kind_limits_wneon msg src dst wad)
    · exact hread _ rfl
    · exact hread _ rfl
  · rcases data with _ | _ | _ | wad | ⟨recipient, wad⟩ | _ | ⟨guy, wad⟩ | ⟨dst, wad⟩ |
      ⟨src, dst, wad⟩ | a | ⟨src, guy⟩
    · exact Triple.fail fun _ _ => trivial
    · exact Triple.fail fun _ _ => trivial
    · exact hdeposit .checked rfl
    · simp only [Kind.payout, reduceCtorEq] at h
    · simp only [Kind.payout, reduceCtorEq] at h
    · exact hread _ rfl
    · exact nonPayable_posted (fun _ _ hs => Booked.posted rfl hs) (approve_booked msg guy wad)
    · exact nonPayable_posted (fun _ _ hs => hs)
        (transferFrom_booked .checked kind_limits_wNativeChainToken msg msg.sender dst wad)
    · exact nonPayable_posted (fun _ _ hs => hs)
        (transferFrom_booked .checked kind_limits_wNativeChainToken msg src dst wad)
    · exact hread _ rfl
    · exact hread _ rfl

-- ---------------------------------------------------------------------------
-- Payouts
-- ---------------------------------------------------------------------------

omit [Fintype Address] in
theorem transferNative_books (src dst : Address) (amount : Nat) :
    Triple (fun s => s.world.books = b) (transferNative src dst amount)
      (fun _ s => s.world.books = b) (fun s => s.world.books = b) :=
  transferNative_spec _ _ _ (fun _ h _ => h) (fun _ h _ => h)

/-- A payout that is due reaches its recipient; from there on it is in the recipient's
hands. -/
theorem payNative_runs {recipient : Address} (hne : recipient ≠ token) {wad : Uint256}
    (h : Booked token extra wad.toNat b s) :
    ∃ stopped, Booked token extra 0 b stopped ∧
      exec (payStop token recipient wad) s = (.error .empty, stopped) ∧
      ∀ (t : Token Address) callbacks accepts,
        exec (payNative t token callbacks accepts recipient wad) s =
          if accepts = true then (.ok (), callbacks stopped)
          else (.error .empty, callbacks stopped) := by
  have hfunds : wad.toNat ≤ s.world.native token := by
    have := h.backed
    omega
  have hnoted := h.toOwes.note (c := .payout (s.world.native token) wad) hfunds
  obtain ⟨_, stopped, hrun, howes, hbooks⟩ := Triple.returns
    (((transferNative_out hne wad.toNat (Nat.zero_add _)).and
      (transferNative_books (b := b) token recipient wad.toNat)).conseq
        (fun _ hs => hs) (fun _ _ hs => hs) fun _ hs => hs.1) ⟨hnoted, h.books⟩
  refine ⟨stopped, ⟨howes, hbooks⟩, ?_, ?_⟩
  · show exec (transferNative token recipient wad.toNat >>= fun _ => fail .empty) _ = _
    rw [exec_bind, hrun]
    rfl
  · intro t callbacks accepts
    show exec (transferNative token recipient wad.toNat >>= fun _ =>
      if recipient = token then t.receive ⟨token, wad⟩
      else do
        write callbacks
        requires (accepts = true)) _ = _
    rw [exec_bind, hrun]
    simp only [if_neg hne]
    show exec (requires (accepts = true)) (callbacks stopped) = _
    rw [requires, ensure]
    split <;> rfl

/-- A call with a payout that returned: what it wrote before the payout is all it did to the
books itself. -/
theorem withdrawTo_runs (ar : Arithmetic) {msg : Msg Address} {recipient : Address}
    (hne : recipient ≠ token) {wad : Uint256} (h : Booked token extra 0 b s)
    {t : Token Address} {callbacks : State Address → State Address} {accepts : Bool}
    {s' : State Address}
    (hrun : exec (withdrawTo ar (payNative t token callbacks accepts) msg recipient wad) s =
      (.ok (), s')) :
    ∃ b' stopped, b.withdraw msg.sender wad.toNat = some b' ∧ Booked token extra 0 b' stopped ∧
      exec (withdrawTo ar (payStop token) msg recipient wad) s = (.error .empty, stopped) ∧
      s'.world.books = (callbacks stopped).world.books := by
  have hbalance : wad ≤ s.world.balanceOf msg.sender := by
    by_contra hshort
    have hfail : exec (withdrawTo ar (payNative t token callbacks accepts) msg recipient wad) s =
        (.error .empty, s) := by
      show exec (requires (wad ≤ s.world.balanceOf msg.sender) >>= _) s = _
      rw [requires, ensure, if_neg hshort]
      rfl
    rw [hfail] at hrun
    cases hrun
  obtain ⟨written, hwrite, hwritten⟩ : ∃ written,
      exec (debitBalance ar msg.sender wad) s = (.ok (), written) ∧
        Booked token extra wad.toNat (b.debited msg.sender wad.toNat) written := by
    have hends := debit_booked ar msg.sender wad (Nat.zero_add _) s ⟨h, hbalance⟩
    rw [exec_debitBalance ar hbalance] at hends ⊢
    exact ⟨_, rfl, hends⟩
  obtain ⟨stopped, hstopped, hstop, hpay⟩ := payNative_runs hne hwritten
  have hexec (pay : Address → Uint256 → Contract Address Unit) :
      exec (withdrawTo ar pay msg recipient wad) s =
        exec (pay recipient wad >>= fun _ => emit (.withdrawal recipient wad)) written := by
    show exec (requires (wad ≤ s.world.balanceOf msg.sender) >>= fun _ =>
      debitBalance ar msg.sender wad >>= fun _ => pay recipient wad >>= fun _ =>
        emit (.withdrawal recipient wad)) s = _
    rw [requires, ensure, if_pos hbalance, pure_bind, exec_bind, hwrite]
  have hfunds : wad.toNat ≤ b.balanceOf msg.sender := by
    rw [← h.books]
    exact hbalance
  refine ⟨_, stopped, if_pos hfunds, hstopped, ?_, ?_⟩
  · rw [hexec, exec_bind, hstop]
  · rw [hexec, exec_bind, hpay] at hrun
    by_cases haccepts : accepts = true
    · rw [if_pos haccepts] at hrun
      have hs' : s' = _ := (congrArg Prod.snd hrun).symm
      rw [hs']
      rfl
    · rw [if_neg haccepts] at hrun
      cases hrun

omit [Fintype Address] in
/-- The contract that cannot be sent to does not pay itself. -/
theorem withdrawTo_self (token : Address) (ar : Arithmetic) (callbacks : State Address → State Address)
    (accepts : Bool) (msg : Msg Address) (wad : Uint256) :
    Triple (fun _ => True)
      (withdrawTo ar (payNative (Kind.wNativeChainToken.code token) token callbacks accepts) msg
        token wad) (fun _ _ => False) (fun _ => True) := by
  refine Triple.bind _ Triple.trivial fun _ => Triple.bind _ Triple.trivial fun _ =>
    Triple.bind _ Triple.trivial fun _ => Triple.bind (fun _ _ => False) ?_ ?_
  · refine Triple.bind _ Triple.trivial fun _ => Triple.bind _ Triple.trivial fun _ =>
      Triple.bind _ Triple.trivial fun _ => ?_
    rw [if_pos rfl]
    exact Triple.fail fun _ _ => trivial
  · exact fun _ _ h => h.elim

-- ---------------------------------------------------------------------------
-- Runs
-- ---------------------------------------------------------------------------

section Calls

variable {t : Token Address} {sender : Outside token} {value : Uint256} {data : Calldata Address}
  {callbacks : List (Action token)} {accepts : Bool} {s' : State Address}

omit [Fintype Address] in
theorem call_reverted {e : Revert}
    (h : exec (callToken t token (payNative t token (execAll t callbacks) accepts)
      ⟨sender, value⟩ data) s = (.error e, s')) :
    (Action.call sender value data callbacks accepts).effects t s = [] ∧
      ((Action.call sender value data callbacks accepts).exec t s).world = s.world := by
  rw [Action.effects, Action.exec, attempt, h]
  exact ⟨rfl, rfl⟩

omit [Fintype Address] in
theorem call_returned
    (h : exec (callToken t token (payNative t token (execAll t callbacks) accepts)
      ⟨sender, value⟩ data) s = (.ok (), s')) :
    (∀ u stopped, exec (callToken t token (payStop token) ⟨sender, value⟩ data) s =
        (.ok u, stopped) →
      (Action.call sender value data callbacks accepts).effects t s =
        [⟨⟨sender, value⟩, data⟩]) ∧
    (∀ e stopped, exec (callToken t token (payStop token) ⟨sender, value⟩ data) s =
        (.error e, stopped) →
      (Action.call sender value data callbacks accepts).effects t s =
        ⟨⟨sender, value⟩, data⟩ :: effectsAll t callbacks stopped) ∧
    (Action.call sender value data callbacks accepts).exec t s = s' := by
  refine ⟨?_, ?_, ?_⟩
  · intro u stopped hstop
    rw [Action.effects, h, hstop]
  · intro e stopped hstop
    rw [Action.effects, h, hstop]
  · rw [Action.exec, attempt, h]

end Calls

/-- A function on states does to the books what the calls say. -/
def Posts (k : Kind) (token : Address) (run' : State Address → State Address)
    (effects : State Address → List (Call Address)) : Prop :=
  ∀ extra s, Owes token extra 0 s →
    run (Books.post k) s.world.books (effects s) = some (run' s).world.books

variable {c : Call Address}

omit [Fintype Address] in
/-- A payout that is made does not go to the token. -/
theorem payout_ne (hsender : c.sender ≠ token) {recipient : Address} {wad : Uint256}
    (hpayout : k.payout c.toMsg c.data = some (recipient, wad))
    {callbacks : State Address → State Address} {accepts : Bool} {s' : State Address}
    (hrun : exec (withdrawTo k.arithmetic (payNative (k.code token) token callbacks accepts)
      c.toMsg recipient wad) s = (.ok (), s')) : recipient ≠ token := by
  obtain ⟨msg, data⟩ := c
  rcases k with _ | _
  · rcases data <;>
      simp only [Kind.payout, Option.some.injEq, Prod.mk.injEq, reduceCtorEq] at hpayout
    rw [← hpayout.1]
    exact hsender
  · rintro rfl
    exact (withdrawTo_self _ .checked callbacks accepts msg wad).ok trivial hrun

/-- The value of a call is taken in before the code runs. -/
theorem transferNative_booked (hsender : c.sender ≠ token) :
    Triple (Booked token extra 0 b) (transferNative c.sender token c.value.toNat)
      (fun _ => Booked token extra c.value.toNat b) (fun _ => True) :=
  ((transferNative_in hsender c.value.toNat (Nat.zero_add _)).and
    (transferNative_books (b := b) c.sender token c.value.toNat)).conseq
      (fun _ hs => ⟨hs.toOwes, hs.books⟩) (fun _ _ hs => ⟨hs.1, hs.2⟩) (fun _ _ => trivial)

/-- The code of a call that returned posts to the books; then those made during its payout
do. -/
theorem dispatch_posts (hsender : c.sender ≠ token) {callbacks : List (Action token)}
    {accepts : Bool} {s' : State Address}
    (hcallbacks : Posts k token (execAll (k.code token) callbacks)
      (effectsAll (k.code token) callbacks))
    (h : Booked token extra c.value.toNat b s)
    (hrun : exec ((k.code token).dispatch (payNative (k.code token) token
      (execAll (k.code token) callbacks) accepts) c.toMsg c.data) s = (.ok (), s')) :
    ∃ b', b.post k c = some b' ∧
      ((exec ((k.code token).dispatch (payStop token) c.toMsg c.data) s = (.ok (), s') ∧
          s'.world.books = b') ∨
        ∃ stopped, exec ((k.code token).dispatch (payStop token) c.toMsg c.data) s =
            (.error .empty, stopped) ∧
          run (Books.post k) b' (effectsAll (k.code token) callbacks stopped) =
            some s'.world.books) := by
  rcases hpayout : k.payout c.toMsg c.data with _ | ⟨recipient, wad⟩
  · obtain ⟨b', hpost, hb'⟩ := (dispatch_posted _ hpayout).ok h hrun
    refine ⟨b', hpost, .inl ⟨?_, hb'.books⟩⟩
    rw [← hrun, dispatch_noPayout hpayout]
  · have hdispatch := fun pay => (dispatch_payout token hpayout pay).1
    rw [hdispatch, exec_bind] at hrun
    have hvalue := nonPayable_booked (b := b) c.toMsg s h
    rw [hdispatch, exec_bind]
    generalize exec (nonPayable c.toMsg) s = out at hrun hvalue
    rcases out with ⟨e | u, entered⟩
    · cases hrun
    have hne := payout_ne hsender hpayout hrun
    obtain ⟨b', stopped, hwithdraw, hstopped, hstop, hbooks⟩ := withdrawTo_runs _ hne hvalue hrun
    refine ⟨b', ?_, .inr ⟨stopped, hstop, ?_⟩⟩
    · rw [(dispatch_payout token hpayout (payStop token)).2 b, hwithdraw]
    · rw [← hstopped.books, hbooks]
      exact hcallbacks extra stopped hstopped.toOwes

/-- **One step.** The calls of an action that took effect post to the books what the action
did to them; and so for a run. -/
theorem call_posts {sender : Outside token} {value : Uint256} {data : Calldata Address}
    {callbacks : List (Action token)} {accepts : Bool}
    (hcallbacks : Posts k token (execAll (k.code token) callbacks)
      (effectsAll (k.code token) callbacks)) :
    Posts k token ((Action.call sender value data callbacks accepts).exec (k.code token))
      ((Action.call sender value data callbacks accepts).effects (k.code token)) := by
  intro extra s h
  have hexec (pay : Address → Uint256 → Contract Address Unit) {paid : State Address} {u : Unit}
      (hin : exec (transferNative sender.val token value.toNat) s = (.ok u, paid)) :
      exec (callToken (k.code token) token pay ⟨sender, value⟩ data) s =
        exec ((k.code token).dispatch pay ⟨sender, value⟩ data) paid := by
    rw [callToken, exec_bind, hin]
  rcases hcall : exec (callToken (k.code token) token (payNative (k.code token) token
    (execAll (k.code token) callbacks) accepts) ⟨sender, value⟩ data) s with ⟨e | u, s'⟩
  · obtain ⟨heffects, hworld⟩ := call_reverted hcall
    rw [heffects, hworld]
    rfl
  rcases hin : exec (transferNative sender.val token value.toNat) s with ⟨e | u, paid⟩
  · rw [callToken, exec_bind, hin] at hcall
    cases hcall
  have hpaid := (transferNative_booked (c := ⟨⟨sender.val, value⟩, data⟩) sender.property).ok
    ⟨h, rfl⟩ hin
  have hrun := hcall
  rw [hexec _ hin] at hrun
  obtain ⟨plain, paying, hs'⟩ := call_returned hcall
  rw [hs']
  obtain ⟨b', hpost, hplain | hpaying⟩ :=
    dispatch_posts (c := ⟨⟨sender.val, value⟩, data⟩) sender.property hcallbacks hpaid hrun
  · rw [plain u s' (by rw [hexec _ hin, hplain.1]), hplain.2, run_singleton]
    exact hpost
  · obtain ⟨stopped, hstop, hrest⟩ := hpaying
    rw [paying .empty stopped (by rw [hexec _ hin, hstop]), run_cons]
    exact ⟨b', hpost, hrest⟩

theorem move_posts (src : Outside token) (dst : Address) (amount : Nat) :
    Posts k token ((Action.move src dst amount).exec (k.code token))
      ((Action.move src dst amount).effects (k.code token)) := by
  intro extra s _
  have hends := transferNative_books (b := s.world.books) src.val dst amount s rfl
  rw [Action.effects, Action.exec, attempt, run_nil, Option.some.injEq]
  generalize exec (transferNative src.val dst amount) s = out at hends ⊢
  rcases out with ⟨e | u, s'⟩
  · rfl
  · exact hends.symm

mutual

theorem exec_posts (k : Kind) : ∀ a : Action token, Posts k token (a.exec (k.code token))
    (a.effects (k.code token))
  | .move src dst amount => move_posts src dst amount
  | .call _ _ _ callbacks _ => call_posts (execAll_posts k callbacks)

/-- **A run.** -/
theorem execAll_posts (k : Kind) : ∀ actions : List (Action token),
    Posts k token (execAll (k.code token) actions) (effectsAll (k.code token) actions)
  | [] => fun _ _ _ => rfl
  | a :: rest => by
    intro extra s h
    obtain ⟨mid, _, _, hmid⟩ := exec_grown (keeps k token) a extra s h
    rw [effectsAll, run_append, exec_posts k a extra s h]
    exact execAll_posts k rest mid _ hmid

end

-- ---------------------------------------------------------------------------
-- Who may take from whom
-- ---------------------------------------------------------------------------

omit [Fintype Address] in
theorem run_cut {b b' : Books Address} {past rest : List (Call Address)}
    (h : run (Books.post k) b (past ++ c :: rest) = some b') :
    ∃ before after, run (Books.post k) b past = some before ∧
      before.post k c = some after ∧ run (Books.post k) after rest = some b' := by
  rw [run_append] at h
  obtain ⟨before, hpast, h⟩ := Option.bind_eq_some_iff.mp h
  obtain ⟨after, hpost, hrest⟩ := run_cons.mp h
  exact ⟨before, after, hpast, hpost, hrest⟩

theorem not_unlimited {approved : Uint256} (h : ¬ (k = .wneon ∧ approved = -1)) :
    ¬ k.Unlimited approved.toNat := by
  rcases k with _ | _
  · rw [← kind_limits_wneon]
    exact decide_eq_true fun heq => h ⟨rfl, heq⟩
  · exact not_false

omit [Fintype Address] in
/-- From one approval to the next, the spender stays within what was approved. -/
theorem stretch_pulled_le {b b' : Books Address} {past stretch rest : List (Call Address)}
    {holder spender : Address} {value approved : Uint256}
    (h : run (Books.post k) b (past ++
      ⟨⟨holder, value⟩, .approve spender approved⟩ :: (stretch ++ rest)) = some b')
    (happroves : ∀ c ∈ stretch, ¬ c.Approves holder spender) (hne : spender ≠ holder)
    (hlimited : ¬ (k = .wneon ∧ approved = -1)) :
    (stretch.map (Call.pulled holder spender)).sum ≤ approved.toNat := by
  obtain ⟨before, after, _, hpost, hrun⟩ := run_cut h
  rw [run_append] at hrun
  obtain ⟨last, hstretch, _⟩ := Option.bind_eq_some_iff.mp hrun
  have hafter : after.allowance holder spender = approved.toNat := by
    rw [show before.post k ⟨⟨holder, value⟩, .approve spender approved⟩ =
      some (before.approved holder spender approved.toNat) by rcases k with _ | _ <;> rfl,
      Option.some.injEq] at hpost
    rw [← hpost, approved_self]
  have hsum := run_pulled_add_allowance hstretch happroves hne (by
    rw [hafter]
    exact not_unlimited hlimited)
  omega

/-- **Authorisation.** In every run of either contract, from its creation on, the storage is
what the calls that took effect post to the books. Each of them lowers balances only of its
own sender or within an allowance of its sender's, and none if it transfers to itself. From
one approval to the next a spender other than the holder takes no more than was approved.
A reverted call changes nothing. -/
theorem authorised (k : Kind) (token : Address) (creator : Outside token) (value : Uint256)
    (native : Address → Nat) (hsupply : total native < 2 ^ 256) (s₀ : State Address)
    (hdeploy : deploy (k.code token) creator value native = some s₀)
    (actions : List (Action token)) :
    run (Books.post k) s₀.world.books (effectsAll (k.code token) actions s₀) =
        some (execAll (k.code token) actions s₀).world.books ∧
    (∀ past c rest, effectsAll (k.code token) actions s₀ = past ++ c :: rest →
      ∃ before after, run (Books.post k) s₀.world.books past = some before ∧
      before.post k c = some after ∧
      (∀ holder, after.balanceOf holder < before.balanceOf holder → c.MayLower before holder) ∧
      (c.ToItself → after.balanceOf = before.balanceOf)) ∧
    (∀ past stretch rest holder spender value approved,
      effectsAll (k.code token) actions s₀ =
        past ++ ⟨⟨holder, value⟩, .approve spender approved⟩ :: (stretch ++ rest) →
      (∀ c ∈ stretch, ¬ c.Approves holder spender) → spender ≠ holder →
      ¬ (k = .wneon ∧ approved = -1) →
      (stretch.map (Call.pulled holder spender)).sum ≤ approved.toNat) ∧
    ∀ (sender : Outside token) value data callbacks accepts s e s',
      exec (callToken (k.code token) token
        (payNative (k.code token) token (execAll (k.code token) callbacks) accepts)
        ⟨sender, value⟩ data) s = (.error e, s') →
      ((Action.call sender value data callbacks accepts).exec (k.code token) s).world =
        s.world := by
  have hstart := deploy_grown (keeps k token) hsupply hdeploy
  have hrun := execAll_posts k actions _ _ hstart
  refine ⟨hrun, ?_, ?_, ?_⟩
  · intro past c rest hcalls
    rw [hcalls] at hrun
    obtain ⟨before, after, hpast, hpost, _⟩ := run_cut hrun
    exact ⟨before, after, hpast, hpost, fun holder hlower => post_lowers hpost hlower,
      fun hself => post_toItself hself hpost⟩
  · intro past stretch rest holder spender value approved hcalls happroves hne hlimited
    rw [hcalls] at hrun
    exact stretch_pulled_le hrun happroves hne hlimited
  · intro sender value data callbacks accepts s e s' hcall
    exact (call_reverted hcall).2

section Sample

/-- Alice wraps 5 and lets Bob take 3. While she is paid 1 he takes 2, and fails to take 2
more. -/
def pullingRun : List SampleAction :=
  [.call alice 5 .deposit [] true,
   .call alice 0 (.approve bobAccount 3) [] true,
   .call alice 0 (.withdraw 1) [.call bob 0 (.transferFrom aliceAccount bobAccount 2) [] true,
     .call bob 0 (.transferFrom aliceAccount bobAccount 2) [] true] true]

/-- Alice approves 1 for herself and moves 4. -/
def selfApprovedRun : List SampleAction :=
  [.call alice 5 .deposit [] true,
   .call alice 0 (.approve aliceAccount 1) [] true,
   .call alice 0 (.transferFrom aliceAccount bobAccount 4) [] true]

theorem authorised_pullingRun :
    ∃ s₀, deploy (Kind.wneon.code (0 : Fin 3)) alice 0 (fun _ => 10) = some s₀ ∧
      effectsAll (Kind.wneon.code 0) pullingRun s₀ =
        [⟨⟨alice, 5⟩, .deposit⟩, ⟨⟨alice, 0⟩, .approve bob 3⟩, ⟨⟨alice, 0⟩, .withdraw 1⟩,
          ⟨⟨bob, 0⟩, .transferFrom alice bob 2⟩] ∧
      (([⟨⟨alice, 0⟩, .withdraw 1⟩, ⟨⟨bob, 0⟩, .transferFrom alice bob 2⟩] :
        List (Call (Fin 3))).map (Call.pulled alice.val bob.val)).sum ≤ 3 := by
  obtain ⟨_, _, hstretch, _⟩ := authorised .wneon 0 alice 0 (fun _ => 10) total_sample _ rfl pullingRun
  refine ⟨_, rfl, rfl, ?_⟩
  refine hstretch [⟨⟨alice, 5⟩, .deposit⟩] _ [] alice bob 0 3 rfl ?_ (by decide) (by decide)
  intro c hc
  rintro ⟨_, wad, hdata⟩
  simp only [List.mem_cons, List.not_mem_nil, or_false] at hc
  rcases hc with rfl | rfl <;> cases hdata

/-- A holder needs no approval: its own for itself does not bind it. -/
theorem selfApproved_not_bound :
    ∃ s₀, deploy (Kind.wneon.code (0 : Fin 3)) alice 0 (fun _ => 10) = some s₀ ∧
      ¬ ∀ past stretch rest holder spender value approved,
        effectsAll (Kind.wneon.code 0) selfApprovedRun s₀ =
          past ++ ⟨⟨holder, value⟩, .approve spender approved⟩ :: (stretch ++ rest) →
        (∀ c ∈ stretch, ¬ c.Approves holder spender) →
        ¬ approved = -1 → (stretch.map (Call.pulled holder spender)).sum ≤ approved.toNat := by
  refine ⟨_, rfl, ?_⟩
  intro hall
  have hbound := hall [⟨⟨alice, 5⟩, .deposit⟩] [⟨⟨alice, 0⟩, .transferFrom alice bob 4⟩] []
    alice alice 0 1 rfl (by
      intro c hc
      rintro ⟨_, wad, hdata⟩
      rw [List.mem_singleton.mp hc] at hdata
      cases hdata) (by decide)
  exact absurd hbound (by decide)

end Sample

end NeonTests.WrappedToken
