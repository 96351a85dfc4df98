import NeonTests.Lib.Endian
import NeonTests.Lib.Solidity
import Mathlib.Data.List.TakeDrop

/-!
# The memory of a call

Byte memory as inline assembly sees it: words are stored big-endian at any
address, so stores overlap, and what a call can touch is bounded by its gas.

* `Holds m p bs` — the bytes `bs` stand at `p`; it splits along `++`
  (`holds_append`), survives a store next to it (`Holds.write_of_disjoint`) and is
  extended by a store right behind it (`Holds.write_behind`);
* `mload_eq_ok` / `mstore_eq_ok` / `calldatacopy_eq_ok` — when an access returns,
  and what.
-/

namespace EvmMemory

open Endian Fallible Solidity

/-- The byte at every address. -/
abbrev Memory := Nat → UInt8

def read (m : Memory) : Nat → Nat → Bytes
  | _, 0 => []
  | p, n + 1 => m p :: read m (p + 1) n

def write (m : Memory) : Nat → Bytes → Memory
  | _, [] => m
  | p, b :: bs => write (Function.update m p b) (p + 1) bs

/-- The bytes that stand at an address. -/
def Holds (m : Memory) (p : Nat) (bs : Bytes) : Prop := read m p bs.length = bs

instance (m : Memory) (p : Nat) (bs : Bytes) : Decidable (Holds m p bs) :=
  inferInstanceAs (Decidable (read m p bs.length = bs))

variable {m : Memory} {p q n : Nat} {bs cs : Bytes}

@[simp] theorem length_read (m : Memory) (p n : Nat) : (read m p n).length = n := by
  induction n generalizing p with
  | zero => rfl
  | succ n ih => rw [read, List.length_cons, ih]

theorem read_add (m : Memory) (p j k : Nat) :
    read m p (j + k) = read m p j ++ read m (p + j) k := by
  induction j generalizing p with
  | zero => simp [read]
  | succ j ih =>
    rw [Nat.add_right_comm, read, ih, read, List.cons_append, Nat.add_assoc p, Nat.add_comm 1 j]

theorem read_congr {m m' : Memory} (h : ∀ a, p ≤ a → a < p + n → m a = m' a) :
    read m p n = read m' p n := by
  induction n generalizing p with
  | zero => rfl
  | succ n ih =>
    rw [read, read, h p le_rfl (by omega), ih fun a hlo hhi => h a (by omega) (by omega)]

/-- A store leaves the bytes in front of it and behind it alone. -/
theorem write_of_outside {a : Nat} (m : Memory) (h : a < q ∨ q + bs.length ≤ a) :
    write m q bs a = m a := by
  induction bs generalizing m q with
  | nil => rfl
  | cons b bs ih =>
    rw [List.length_cons] at h
    rw [write, ih _ (by omega), Function.update_of_ne (by omega)]

theorem read_write_self (m : Memory) (p : Nat) (bs : Bytes) :
    read (write m p bs) p bs.length = bs := by
  induction bs generalizing m p with
  | nil => rfl
  | cons b bs ih =>
    rw [List.length_cons, read, write, ih, write_of_outside _ (by omega), Function.update_self]

-- ---------------------------------------------------------------------------
-- What stands where
-- ---------------------------------------------------------------------------

theorem Holds.read (h : Holds m p bs) (hn : n = bs.length) : read m p n = bs := by
  rw [hn]
  exact h

/-- Reading past the end of a byte string that stands there. -/
theorem Holds.read_of_le (h : Holds m p bs) (hn : bs.length ≤ n) :
    EvmMemory.read m p n = bs ++ EvmMemory.read m (p + bs.length) (n - bs.length) := by
  obtain ⟨k, rfl⟩ := Nat.exists_eq_add_of_le hn
  rw [read_add, h.read rfl, Nat.add_sub_cancel_left]

theorem holds_append : Holds m p (bs ++ cs) ↔ Holds m p bs ∧ Holds m (p + bs.length) cs := by
  unfold Holds
  rw [List.length_append, read_add]
  constructor
  · intro h
    exact List.append_inj h (length_read ..)
  · rintro ⟨hbs, hcs⟩
    rw [hbs, hcs]

theorem holds_write (m : Memory) (p : Nat) (bs : Bytes) : Holds (write m p bs) p bs :=
  read_write_self m p bs

theorem Holds.write_of_disjoint (h : Holds m p bs)
    (hdisj : p + bs.length ≤ q ∨ q + cs.length ≤ p) : Holds (write m q cs) p bs := by
  unfold Holds
  rw [read_congr fun a hlo hhi => write_of_outside m (by omega)]
  exact h

/-- A store right behind a byte string makes it longer. -/
theorem Holds.write_behind (h : Holds m p bs) (hq : q = p + bs.length) :
    Holds (write m q cs) p (bs ++ cs) := by
  subst hq
  exact holds_append.mpr ⟨h.write_of_disjoint (Or.inl le_rfl), holds_write m _ cs⟩

/-- The same for a store of which only the front is kept. -/
theorem Holds.write_front_behind (h : Holds m p bs) (cs ds : Bytes) (hq : q = p + bs.length) :
    Holds (write m q (cs ++ ds)) p (bs ++ cs) := by
  have hall : Holds (write m q (cs ++ ds)) p (bs ++ (cs ++ ds)) := h.write_behind hq
  rw [← List.append_assoc] at hall
  exact (holds_append.mp hall).1

-- ---------------------------------------------------------------------------
-- Words
-- ---------------------------------------------------------------------------

def wordBytes (w : Uint256) : Bytes := beBytes 32 w.toNat

def wordOf (bs : Bytes) : Uint256 := BitVec.ofNat 256 (beNat bs)

@[simp] theorem length_wordBytes (w : Uint256) : (wordBytes w).length = 32 := length_beBytes ..

theorem wordOf_wordBytes (w : Uint256) : wordOf (wordBytes w) = w := by
  apply BitVec.eq_of_toNat_eq
  rw [wordOf, wordBytes, beNat_beBytes w.isLt, BitVec.toNat_ofNat, Nat.mod_eq_of_lt w.isLt]

theorem wordBytes_wordOf (h : bs.length = 32) : wordBytes (wordOf bs) = bs := by
  have hpow : (256 : Nat) ^ 32 = 2 ^ 256 := by norm_num
  have hlt := beNat_lt bs
  have hbytes := beBytes_beNat bs
  rw [h] at hlt hbytes
  rw [hpow] at hlt
  rw [wordBytes, wordOf, BitVec.toNat_ofNat, Nat.mod_eq_of_lt hlt, hbytes]

/-- Pointer arithmetic that stays inside the word. -/
theorem toNat_add {a b : Uint256} {k : Nat} (hb : b.toNat = k) (h : a.toNat + k < 2 ^ 256) :
    (a + b).toNat = a.toNat + k := by
  rw [BitVec.toNat_add, hb, Nat.mod_eq_of_lt h]

-- ---------------------------------------------------------------------------
-- Instructions
-- ---------------------------------------------------------------------------

/-- What the gas of a call pays for: memory up to an address, and rounds of a loop.
The gas is a 64-bit number and no byte of memory is free. -/
structure Gas where
  memory : Nat
  rounds : Nat
  memory_lt : memory < 2 ^ 64

inductive Halt
  | outOfGas
  deriving DecidableEq, Repr

/-- The memory has to reach as far as the access; an empty one needs none. -/
def expand (gas : Gas) (p size : Nat) : Except Halt Unit :=
  guard (size = 0 ∨ p + size ≤ gas.memory) .outOfGas

def mload (gas : Gas) (m : Memory) (p : Uint256) : Except Halt Uint256 := do
  expand gas p.toNat 32
  return wordOf (read m p.toNat 32)

def mstore (gas : Gas) (m : Memory) (p w : Uint256) : Except Halt Memory := do
  expand gas p.toNat 32
  return write m p.toNat (wordBytes w)

/-- Behind its end calldata reads as zero. -/
def calldatacopy (gas : Gas) (m : Memory) (calldata : Bytes) (dst src size : Uint256) :
    Except Halt Memory := do
  expand gas dst.toNat size.toNat
  return write m dst.toNat ((calldata.drop src.toNat).takeD size.toNat 0)

/-- A contract creation: the value sent along and the code that is run. -/
structure Creation where
  value : Uint256
  initCode : Bytes
  deriving DecidableEq, Repr

def create (gas : Gas) (m : Memory) (value p size : Uint256) : Except Halt Creation := do
  expand gas p.toNat size.toNat
  return ⟨value, read m p.toNat size.toNat⟩

variable {gas : Gas} {m' : Memory} {a w : Uint256}

theorem mload_eq_ok :
    mload gas m a = .ok w ↔ a.toNat + 32 ≤ gas.memory ∧ wordOf (read m a.toNat 32) = w := by
  unfold mload expand
  rw [guard_bind_eq_ok, pure_eq_ok]
  simp

theorem mstore_eq_ok :
    mstore gas m a w = .ok m' ↔
      a.toNat + 32 ≤ gas.memory ∧ write m a.toNat (wordBytes w) = m' := by
  unfold mstore expand
  rw [guard_bind_eq_ok, pure_eq_ok]
  simp

theorem calldatacopy_eq_ok {calldata : Bytes} {dst src size : Uint256} :
    calldatacopy gas m calldata dst src size = .ok m' ↔
      (size.toNat = 0 ∨ dst.toNat + size.toNat ≤ gas.memory) ∧
        write m dst.toNat ((calldata.drop src.toNat).takeD size.toNat 0) = m' := by
  unfold calldatacopy expand
  rw [guard_bind_eq_ok, pure_eq_ok]

theorem create_eq_ok {value p size : Uint256} {c : Creation} :
    create gas m value p size = .ok c ↔
      (size.toNat = 0 ∨ p.toNat + size.toNat ≤ gas.memory) ∧
        ⟨value, read m p.toNat size.toNat⟩ = c := by
  unfold create expand
  rw [guard_bind_eq_ok, pure_eq_ok]

/-- Loading a word that stands in memory. -/
theorem mload_of_holds (h : Holds m a.toNat (wordBytes w)) (hgas : a.toNat + 32 ≤ gas.memory) :
    mload gas m a = .ok w :=
  mload_eq_ok.mpr ⟨hgas, by rw [h.read (length_wordBytes w).symm, wordOf_wordBytes]⟩

end EvmMemory
