import NeonTests.Lib.EvmMemory

/-!
# Walking over memory word by word

The loops with which inline assembly copies and compares byte arrays: they take a word at a time
until they have passed the end. What is written last may go beyond the end, and what is read may
be what was written before, so the rules speak of single addresses.

* `copyLoop_ok` — every byte whose source lies in front of the target arrives, and nothing
  else changes but up to the end of the last word;
* `room_of_copyLoop`, `front_of_copyLoop` — a loop that ends had the gas for every word, and
  left what lies in front of the target alone;
* `compareLoop_eq_true` — a comparison says yes if all bytes agree up to the end of the last word;
* `toNat_and_31` / `toNat_and_not_31` — the masks that pad to whole words.
-/

namespace EvmMemory

open Endian Fallible Solidity

variable {gas : Gas} {m m' : Memory} {p q n rounds : Nat} {bs cs : Bytes}
  {stop mc mc' cc : Uint256}

-- ---------------------------------------------------------------------------
-- Single addresses
-- ---------------------------------------------------------------------------

theorem read_moved (h : ∀ i < n, m' (q + i) = m (p + i)) : read m' q n = read m p n := by
  induction n generalizing p q with
  | zero => rfl
  | succ n ih =>
    rw [read, read, show m' q = m p from h 0 (Nat.succ_pos n)]
    congr 1
    refine ih fun i hi => ?_
    rw [Nat.add_assoc, Nat.add_assoc, Nat.add_comm 1 i]
    exact h (i + 1) (by omega)

/-- A byte string stands where its bytes were moved. -/
theorem Holds.moved (hbs : Holds m p bs) (h : ∀ i < bs.length, m' (q + i) = m (p + i)) :
    Holds m' q bs :=
  (read_moved h).trans hbs

theorem Holds.unchanged (hbs : Holds m p bs) (h : ∀ a, p ≤ a → a < p + bs.length → m' a = m a) :
    Holds m' p bs :=
  hbs.moved fun i hi => h (p + i) (by omega) (by omega)

theorem read_eq_read_iff : read m p n = read m' q n ↔ ∀ i < n, m (p + i) = m' (q + i) := by
  refine ⟨fun h => ?_, fun h => (read_moved fun i hi => (h i hi).symm).symm⟩
  induction n generalizing p q with
  | zero => exact fun i hi => absurd hi (Nat.not_lt_zero i)
  | succ n ih =>
    rw [read, read, List.cons.injEq] at h
    intro i hi
    cases i with
    | zero => exact h.1
    | succ i =>
      have hrest := ih h.2 i (Nat.lt_of_succ_lt_succ hi)
      rwa [Nat.add_assoc, Nat.add_assoc, Nat.add_comm 1 i] at hrest

theorem write_read_apply (m₀ : Memory) {i : Nat} (hi : i < n) :
    write m₀ q (read m p n) (q + i) = m (p + i) := by
  induction n generalizing m₀ p q i with
  | zero => omega
  | succ n ih =>
    rw [read, write]
    cases i with
    | zero =>
      rw [write_of_outside _ (Or.inl (by omega))]
      exact Function.update_self ..
    | succ i =>
      have hstep := ih (p := p + 1) (q := q + 1) (Function.update m₀ q (m p)) (i := i) (by omega)
      rw [Nat.add_assoc, Nat.add_assoc, Nat.add_comm 1 i] at hstep
      exact hstep

/-- A store that is paid for: the word it leaves, and everything else as it was. -/
theorem exists_mstore {a w : Uint256} (hroom : a.toNat + 32 ≤ gas.memory) :
    ∃ m', mstore gas m a w = .ok m' ∧ Holds m' a.toNat (wordBytes w) ∧
      ∀ b, b < a.toNat ∨ a.toNat + 32 ≤ b → m' b = m b := by
  refine ⟨_, mstore_eq_ok.mpr ⟨hroom, rfl⟩, holds_write .., fun b hb => ?_⟩
  exact write_of_outside _ (by rw [length_wordBytes]; exact hb)

-- ---------------------------------------------------------------------------
-- The loop
-- ---------------------------------------------------------------------------

/-- `for { } lt(mc, end) { mc := add(mc, 0x20) cc := add(cc, 0x20) } { mstore(mc, mload(cc)) }`,
with the final `mc`. -/
def copyLoop (gas : Gas) (stop : Uint256) :
    Nat → Memory → Uint256 → Uint256 → Except Halt (Memory × Uint256)
  | 0, m, mc, _ => if mc < stop then .error .outOfGas else .ok (m, mc)
  | rounds + 1, m, mc, cc =>
    if mc < stop then do
      let word ← mload gas m cc
      let m ← mstore gas m mc word
      copyLoop gas stop rounds m (mc + 32) (cc + 32)
    else .ok (m, mc)

/-- The words it takes to get from `mc` to the end. -/
def wordCount (size : Nat) : Nat := (size + 31) / 32

theorem copyLoop_ok {words : Nat} (hwords : words = wordCount (stop.toNat - mc.toNat))
    (hrounds : words ≤ rounds)
    (hroom : words = 0 ∨
      mc.toNat + 32 * words ≤ gas.memory ∧ cc.toNat + 32 * words ≤ gas.memory) :
    ∃ m' mc', copyLoop gas stop rounds m mc cc = .ok (m', mc') ∧
      mc'.toNat = mc.toNat + 32 * words ∧
      (∀ a, a < mc.toNat ∨ mc.toNat + 32 * words ≤ a → m' a = m a) ∧
      ∀ i < 32 * words, cc.toNat + i < mc.toNat → m' (mc.toNat + i) = m (cc.toNat + i) := by
  have hgas := gas.memory_lt
  unfold wordCount at hwords
  induction rounds generalizing m mc cc words with
  | zero =>
    have hend : ¬ mc < stop := by
      rw [BitVec.lt_def]
      omega
    refine ⟨m, mc, if_neg hend, by omega, fun _ _ => rfl, fun i hi => ?_⟩
    omega
  | succ rounds ih =>
    rw [copyLoop]
    by_cases hlt : mc < stop
    · rw [BitVec.lt_def] at hlt
      have hmcNext : (mc + 32).toNat = mc.toNat + 32 := toNat_add rfl (by omega)
      have hccNext : (cc + 32).toNat = cc.toNat + 32 := toNat_add rfl (by omega)
      have hword : wordBytes (wordOf (read m cc.toNat 32)) = read m cc.toNat 32 :=
        wordBytes_wordOf (length_read ..)
      have hnext : words - 1 = (stop.toNat - (mc + 32).toNat + 31) / 32 := by omega
      obtain ⟨m', mc', hloop, hend, houtside, hinside⟩ :
          ∃ m' mc', copyLoop gas stop rounds (write m mc.toNat (read m cc.toNat 32)) (mc + 32)
            (cc + 32) = .ok (m', mc') ∧ _ :=
        ih hnext (by omega) (by omega)
      refine ⟨m', mc', ?_, by omega, ?_, ?_⟩
      · rw [if_pos (BitVec.lt_def.mpr hlt), mload_eq_ok.mpr ⟨by omega, rfl⟩, ok_bind,
          mstore_eq_ok.mpr ⟨by omega, rfl⟩, ok_bind, hword]
        exact hloop
      · intro a ha
        rw [houtside a (by omega), write_of_outside _ (by rw [length_read]; omega)]
      · intro i hi hsource
        by_cases hfirst : i < 32
        · rw [houtside _ (by omega), write_read_apply _ hfirst]
        · have hmoved := hinside (i - 32) (by omega) (by omega)
          have htarget : (mc + 32).toNat + (i - 32) = mc.toNat + i := by omega
          have hfrom : (cc + 32).toNat + (i - 32) = cc.toNat + i := by omega
          rw [htarget, hfrom, write_of_outside _ (Or.inl hsource)] at hmoved
          exact hmoved
    · refine ⟨m, mc, if_neg hlt, ?_, fun _ _ => rfl, fun i hi => ?_⟩
      · rw [BitVec.lt_def] at hlt
        omega
      · rw [BitVec.lt_def] at hlt
        omega

/-- A loop that ends had the gas for every word. -/
theorem room_of_copyLoop {r : Memory × Uint256} {words : Nat}
    (hwords : words = wordCount (stop.toNat - mc.toNat))
    (h : copyLoop gas stop rounds m mc cc = .ok r) :
    words ≤ rounds ∧
      (words = 0 ∨
        mc.toNat + 32 * words ≤ gas.memory ∧ cc.toNat + 32 * words ≤ gas.memory) := by
  have hgas := gas.memory_lt
  unfold wordCount at hwords
  induction rounds generalizing m mc cc words with
  | zero =>
    rw [copyLoop] at h
    split at h
    · cases h
    · next hlt =>
      rw [BitVec.lt_def] at hlt
      omega
  | succ rounds ih =>
    rw [copyLoop] at h
    split at h
    · next hlt =>
      rw [BitVec.lt_def] at hlt
      obtain ⟨word, hload, h⟩ := bind_eq_ok.mp h
      obtain ⟨m₁, hstore, h⟩ := bind_eq_ok.mp h
      have hfrom := (mload_eq_ok.mp hload).1
      have htarget := (mstore_eq_ok.mp hstore).1
      have hmcNext : (mc + 32).toNat = mc.toNat + 32 := toNat_add rfl (by omega)
      have hccNext : (cc + 32).toNat = cc.toNat + 32 := toNat_add rfl (by omega)
      have hnext : words - 1 = (stop.toNat - (mc + 32).toNat + 31) / 32 := by omega
      have hrest := ih hnext h
      omega
    · next hlt =>
      rw [BitVec.lt_def] at hlt
      omega

/-- It writes from `mc` on. -/
theorem front_of_copyLoop {a : Nat} (h : copyLoop gas stop rounds m mc cc = .ok (m', mc'))
    (ha : a < mc.toNat) : m' a = m a := by
  have hgas := gas.memory_lt
  induction rounds generalizing m mc cc with
  | zero =>
    rw [copyLoop] at h
    split at h
    · cases h
    · cases h
      rfl
  | succ rounds ih =>
    rw [copyLoop] at h
    split at h
    · obtain ⟨word, -, h⟩ := bind_eq_ok.mp h
      obtain ⟨m₁, hstore, h⟩ := bind_eq_ok.mp h
      obtain ⟨hroom, rfl⟩ := mstore_eq_ok.mp hstore
      have hnext : (mc + 32).toNat = mc.toNat + 32 := toNat_add rfl (by omega)
      rw [ih h (by omega), write_of_outside _ (Or.inl ha)]
    · cases h
      rfl

-- ---------------------------------------------------------------------------
-- Comparing
-- ---------------------------------------------------------------------------

/-- The same loop around `if iszero(eq(mload(mc), mload(cc))) { success := 0 cb := 0 }`; once
the circuit breaker `cb` is zero it does not go on. -/
def compareLoop (gas : Gas) (m : Memory) (stop : Uint256) :
    Nat → Uint256 → Uint256 → Except Halt Bool
  | 0, mc, _ => if mc < stop then .error .outOfGas else .ok true
  | rounds + 1, mc, cc =>
    if mc < stop then do
      let left ← mload gas m mc
      let right ← mload gas m cc
      if left = right then compareLoop gas m stop rounds (mc + 32) (cc + 32) else return false
    else .ok true

theorem wordOf_inj (hbs : bs.length = 32) (hcs : cs.length = 32) :
    wordOf bs = wordOf cs ↔ bs = cs := by
  refine ⟨fun h => ?_, congrArg wordOf⟩
  rw [← wordBytes_wordOf hbs, h, wordBytes_wordOf hcs]

theorem compareLoop_eq_true {words : Nat} (hwords : words = wordCount (stop.toNat - mc.toNat)) :
    compareLoop gas m stop rounds mc cc = .ok true ↔
      words ≤ rounds ∧
        (words = 0 ∨
          mc.toNat + 32 * words ≤ gas.memory ∧ cc.toNat + 32 * words ≤ gas.memory) ∧
        ∀ i < 32 * words, m (mc.toNat + i) = m (cc.toNat + i) := by
  have hgas := gas.memory_lt
  unfold wordCount at hwords
  induction rounds generalizing mc cc words with
  | zero =>
    rw [compareLoop]
    by_cases hlt : mc < stop
    · rw [BitVec.lt_def] at hlt
      rw [if_pos (BitVec.lt_def.mpr hlt)]
      simp only [reduceCtorEq, false_iff, not_and]
      omega
    · rw [if_neg hlt]
      rw [BitVec.lt_def] at hlt
      have hnone : words = 0 := by omega
      simp [hnone]
  | succ rounds ih =>
    rw [compareLoop]
    by_cases hlt : mc < stop
    · rw [if_pos hlt]
      rw [BitVec.lt_def] at hlt
      have hmcNext : mc.toNat + 32 ≤ gas.memory → (mc + 32).toNat = mc.toNat + 32 := fun _ =>
        toNat_add rfl (by omega)
      have hccNext : cc.toNat + 32 ≤ gas.memory → (cc + 32).toNat = cc.toNat + 32 := fun _ =>
        toNat_add rfl (by omega)
      constructor
      · intro h
        obtain ⟨left, hleft, h⟩ := bind_eq_ok.mp h
        obtain ⟨right, hright, h⟩ := bind_eq_ok.mp h
        obtain ⟨hmc, rfl⟩ := mload_eq_ok.mp hleft
        obtain ⟨hcc, rfl⟩ := mload_eq_ok.mp hright
        have hmcNext := hmcNext hmc
        have hccNext := hccNext hcc
        split at h
        · next heq =>
          have hword := read_eq_read_iff.mp ((wordOf_inj (length_read ..) (length_read ..)).mp heq)
          have hnext : words - 1 = (stop.toNat - (mc + 32).toNat + 31) / 32 := by omega
          obtain ⟨hrounds, hroom, hrest⟩ := (ih hnext).mp h
          refine ⟨by omega, by omega, fun i hi => ?_⟩
          by_cases hfirst : i < 32
          · exact hword i hfirst
          · have hmoved := hrest (i - 32) (by omega)
            rwa [hmcNext, hccNext, Nat.add_assoc, Nat.add_assoc,
              Nat.add_sub_cancel' (Nat.le_of_not_lt hfirst)] at hmoved
        · cases h
      · rintro ⟨hrounds, hroom, hsame⟩
        have hmcNext := hmcNext (by omega)
        have hccNext := hccNext (by omega)
        have hword : wordOf (read m mc.toNat 32) = wordOf (read m cc.toNat 32) :=
          congrArg wordOf (read_eq_read_iff.mpr fun i hi => hsame i (by omega))
        have hnext : words - 1 = (stop.toNat - (mc + 32).toNat + 31) / 32 := by omega
        rw [mload_eq_ok.mpr ⟨by omega, rfl⟩, ok_bind, mload_eq_ok.mpr ⟨by omega, rfl⟩, ok_bind,
          if_pos hword]
        refine (ih hnext).mpr ⟨by omega, by omega, fun i hi => ?_⟩
        rw [hmcNext, hccNext, Nat.add_assoc, Nat.add_assoc]
        exact hsame (32 + i) (by omega)
    · rw [if_neg hlt]
      rw [BitVec.lt_def] at hlt
      have hnone : words = 0 := by omega
      simp [hnone]

/-- With the gas for every word it says yes or no. -/
theorem exists_compareLoop {words : Nat} (hwords : words = wordCount (stop.toNat - mc.toNat))
    (hrounds : words ≤ rounds) (hmc : mc.toNat + 32 * words ≤ gas.memory)
    (hcc : cc.toNat + 32 * words ≤ gas.memory) :
    ∃ b, compareLoop gas m stop rounds mc cc = .ok b := by
  have hgas := gas.memory_lt
  unfold wordCount at hwords
  induction rounds generalizing mc cc words with
  | zero =>
    have hstop : ¬ mc < stop := by
      rw [BitVec.lt_def]
      omega
    exact ⟨true, if_neg hstop⟩
  | succ rounds ih =>
    rw [compareLoop]
    by_cases hlt : mc < stop
    · rw [if_pos hlt]
      rw [BitVec.lt_def] at hlt
      have hmcNext : (mc + 32).toNat = mc.toNat + 32 := toNat_add rfl (by omega)
      have hccNext : (cc + 32).toNat = cc.toNat + 32 := toNat_add rfl (by omega)
      have hnext : words - 1 = (stop.toNat - (mc + 32).toNat + 31) / 32 := by omega
      rw [mload_eq_ok.mpr ⟨by omega, rfl⟩, ok_bind, mload_eq_ok.mpr ⟨by omega, rfl⟩, ok_bind]
      split
      · exact ih hnext (by omega) (by omega) (by omega)
      · exact ⟨false, rfl⟩
    · exact ⟨true, if_neg hlt⟩

-- ---------------------------------------------------------------------------
-- Whole words
-- ---------------------------------------------------------------------------

theorem toNat_and_31 (x : Uint256) : (x &&& 31).toNat = x.toNat % 32 := by
  have hmask : (31 : Uint256).toNat = 2 ^ 5 - 1 := rfl
  rw [BitVec.toNat_and, hmask, Nat.and_two_pow_sub_one_eq_mod]

theorem toNat_and_not_31 (x : Uint256) : (x &&& ~~~(31 : Uint256)).toNat = 32 * (x.toNat / 32) := by
  have hshift : x &&& ~~~(31 : Uint256) = (x >>> 5) <<< 5 := by
    apply BitVec.eq_of_getLsbD_eq
    intro i hi
    have hmask : (31 : Uint256).getLsbD i = decide (i < 5) := by
      rw [← BitVec.testBit_toNat]
      exact Nat.testBit_two_pow_sub_one 5 i
    rw [BitVec.getLsbD_and, BitVec.getLsbD_not, hmask, BitVec.getLsbD_shiftLeft,
      BitVec.getLsbD_ushiftRight]
    by_cases hlow : i < 5
    · simp [hlow]
    · simp [hlow, hi, Nat.add_sub_cancel' (Nat.le_of_not_lt hlow)]
  have hlt := x.isLt
  rw [hshift, BitVec.toNat_shiftLeft, BitVec.toNat_ushiftRight, Nat.shiftLeft_eq,
    Nat.shiftRight_eq_div_pow]
  omega

end EvmMemory
