import Mathlib.Data.Nat.Basic
import Mathlib.Order.Basic

/-!
# Ring buffers

A ring of `len` slots whose cursor points one past the newest item. `Buffer.push`
writes at the cursor and moves it on, overwriting the oldest item once the ring
is full; `Buffer.Holds` says what a ring holds after a number of pushes, and
`Holds.push` is the only step lemma its users need.
-/

namespace RingBuffer

/-- The slot `k` places before the cursor. -/
def slotBefore (cursor len k : Nat) : Nat := (cursor + len - k) % len

theorem slotBefore_lt {cursor len : Nat} (h : 0 < len) (k : Nat) :
    slotBefore cursor len k < len := Nat.mod_lt _ h

/-- The slot before the cursor, with at most one wrap. -/
theorem slotBefore_eq {cursor len k : Nat} (hc : cursor < len) (hk : 0 < k) (hle : k ≤ len) :
    slotBefore cursor len k = if k ≤ cursor then cursor - k else cursor + len - k := by
  unfold slotBefore
  split
  · next h =>
    have hsplit : cursor + len - k = (cursor - k) + len := by omega
    rw [hsplit, Nat.add_mod_right, Nat.mod_eq_of_lt (by omega)]
  · next h => exact Nat.mod_eq_of_lt (by omega)

/-- Different distances lead to different slots. -/
theorem slotBefore_inj {cursor len j k : Nat} (hc : cursor < len) (hj : 0 < j) (hjle : j ≤ len)
    (hk : 0 < k) (hkle : k ≤ len) (h : slotBefore cursor len j = slotBefore cursor len k) :
    j = k := by
  rw [slotBefore_eq hc hj hjle, slotBefore_eq hc hk hkle] at h
  split_ifs at h <;> omega

/-- The cursor after one push. -/
def next (cursor len : Nat) : Nat := (cursor + 1) % len

theorem next_lt {cursor len : Nat} (h : 0 < len) : next cursor len < len := Nat.mod_lt _ h

theorem next_eq {cursor len : Nat} (hc : cursor < len) :
    next cursor len = if cursor + 1 = len then 0 else cursor + 1 := by
  unfold next
  split
  · next h => rw [h, Nat.mod_self]
  · next h => exact Nat.mod_eq_of_lt (by omega)

theorem slotBefore_next_one {cursor len : Nat} (hc : cursor < len) :
    slotBefore (next cursor len) len 1 = cursor := by
  rw [slotBefore_eq (next_lt (by omega)) (by omega) (by omega), next_eq hc]
  split_ifs <;> omega

theorem slotBefore_next_succ {cursor len k : Nat} (hc : cursor < len) (hk : 0 < k)
    (hlt : k < len) :
    slotBefore (next cursor len) len (k + 1) = slotBefore cursor len k := by
  rw [slotBefore_eq (next_lt (by omega)) (by omega) (by omega), next_eq hc,
    slotBefore_eq hc hk (by omega)]
  split_ifs <;> omega

theorem slotBefore_ne_cursor {cursor len k : Nat} (hc : cursor < len) (hk : 0 < k)
    (hlt : k < len) : slotBefore cursor len k ≠ cursor := by
  rw [slotBefore_eq hc hk (by omega)]
  split_ifs <;> omega

/-- A ring of `len` slots; a slot that was never written is `none`. -/
structure Buffer (α : Type) where
  len : Nat
  cursor : Nat
  slots : Nat → Option α

variable {α : Type}

def Buffer.empty (len : Nat) : Buffer α := ⟨len, 0, fun _ => none⟩

def Buffer.push (r : Buffer α) (a : α) : Buffer α where
  len := r.len
  cursor := next r.cursor r.len
  slots := fun i => if i = r.cursor then some a else r.slots i

/-- The ring holds the newest `min len count` of the items pushed so far,
`item i` being the one pushed as number `i`, and nothing else. -/
structure Buffer.Holds (r : Buffer α) (item : Nat → α) (count : Nat) : Prop where
  cursor_lt : r.cursor < r.len
  newest : ∀ k, 0 < k → k ≤ r.len → k ≤ count →
    r.slots (slotBefore r.cursor r.len k) = some (item (count - k))
  only : ∀ i a, r.slots i = some a → ∃ j, j < count ∧ a = item j

theorem Buffer.holds_empty {len : Nat} (h : 0 < len) (item : Nat → α) :
    (Buffer.empty len).Holds item 0 where
  cursor_lt := h
  newest k h0 _ hk := by omega
  only i a ha := by simp [Buffer.empty] at ha

/-- A push keeps the invariant, with the new item as the newest one. -/
theorem Buffer.Holds.push {r : Buffer α} {item : Nat → α} {count : Nat} (h : r.Holds item count) :
    (r.push (item count)).Holds item (count + 1) where
  cursor_lt := next_lt (by have := h.cursor_lt; omega)
  newest k h0 hlen hk := by
    obtain ⟨k, rfl⟩ : ∃ j, k = j + 1 := ⟨k - 1, by omega⟩
    simp only [Buffer.push] at hlen ⊢
    rcases Nat.eq_zero_or_pos k with rfl | hpos
    · rw [slotBefore_next_one h.cursor_lt, if_pos rfl, Nat.add_sub_cancel]
    · rw [slotBefore_next_succ h.cursor_lt hpos (by omega),
        if_neg (slotBefore_ne_cursor h.cursor_lt hpos (by omega)),
        h.newest k hpos (by omega) (by omega), Nat.add_sub_add_right]
  only i a ha := by
    simp only [Buffer.push] at ha
    split at ha
    · exact ⟨count, by omega, (Option.some.inj ha).symm⟩
    · obtain ⟨j, hj, rfl⟩ := h.only i a ha
      exact ⟨j, by omega, rfl⟩

end RingBuffer
