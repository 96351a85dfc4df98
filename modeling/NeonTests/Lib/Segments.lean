import Mathlib.Data.List.Basic
import Mathlib.Order.Lattice

/-!
# Segments — a buffer written piece by piece

A long value is cut into segments, each sent with its own offset, and a medium
delivers them in whatever order and as often as it likes. The library has the
two halves of such a transfer:

* `Tiles` — the cutting loop: nonempty parts, each starting where the last one
  ended. `Tiles.of_target`, `Tiles.covers_iff` and `Tiles.pairwise_disjoint` say
  what the parts are together;
* `Landing` — the writes, one after the other. `Landing.take_eq` and
  `Landing.drop_eq` say what the buffer holds once every part has landed at
  least once, whatever the order.
-/

namespace Segments

variable {α : Type}

/-- A piece of a larger value, and where it belongs. -/
structure Segment (α : Type) where
  offset : Nat
  payload : List α
  deriving DecidableEq, Repr

def Segment.stop (s : Segment α) : Nat := s.offset + s.payload.length

/-- Position `i` is in the range the segment writes. -/
def Segment.Covers (s : Segment α) (i : Nat) : Prop := s.offset ≤ i ∧ i < s.stop

def Segment.Disjoint (s t : Segment α) : Prop := s.stop ≤ t.offset ∨ t.stop ≤ s.offset

/-- The segment is a piece of `target`, at its own place. -/
structure Segment.Of (s : Segment α) (target : List α) : Prop where
  stop_le : s.stop ≤ target.length
  agrees : ∀ i, s.Covers i → s.payload[i - s.offset]? = target[i]?

-- ---------------------------------------------------------------------------
-- Cutting
-- ---------------------------------------------------------------------------

/-- `segs` are the parts of `rest`, cut off its front one after the other, none
of them empty or longer than `limit`; the first one belongs at `offset`. -/
inductive Tiles (limit : Nat) : Nat → List α → List (Segment α) → Prop
  | nil (offset : Nat) : Tiles limit offset [] []
  | cons {offset : Nat} {part rest : List α} {segs : List (Segment α)}
      (hne : part ≠ []) (hle : part.length ≤ limit)
      (htail : Tiles limit (offset + part.length) rest segs) :
      Tiles limit offset (part ++ rest) (⟨offset, part⟩ :: segs)

variable {limit offset : Nat} {rest : List α} {segs : List (Segment α)}

theorem Tiles.length_le (h : Tiles limit offset rest segs) :
    ∀ s ∈ segs, 0 < s.payload.length ∧ s.payload.length ≤ limit := by
  induction h with
  | nil => intro s hs; cases hs
  | cons hne hle _ ih =>
    intro s hs
    rcases List.mem_cons.mp hs with rfl | hs
    · exact ⟨List.length_pos_iff.mpr hne, hle⟩
    · exact ih s hs

theorem Tiles.offset_le (h : Tiles limit offset rest segs) : ∀ s ∈ segs, offset ≤ s.offset := by
  induction h with
  | nil => intro s hs; cases hs
  | cons _ _ _ ih =>
    intro s hs
    rcases List.mem_cons.mp hs with rfl | hs
    · exact le_rfl
    · have := ih s hs
      omega

/-- Together the parts cover the value's range and nothing else. -/
theorem Tiles.covers_iff (h : Tiles limit offset rest segs) (i : Nat) :
    (∃ s ∈ segs, s.Covers i) ↔ offset ≤ i ∧ i < offset + rest.length := by
  induction h with
  | nil offset => simp
  | @cons offset part rest segs _ _ _ ih =>
    rw [List.exists_mem_cons_iff, ih, List.length_append]
    simp only [Segment.Covers, Segment.stop]
    omega

theorem Tiles.pairwise_disjoint (h : Tiles limit offset rest segs) :
    segs.Pairwise Segment.Disjoint := by
  induction h with
  | nil => exact List.Pairwise.nil
  | cons _ _ htail ih =>
    refine List.Pairwise.cons ?_ ih
    intro s hs
    exact Or.inl (htail.offset_le s hs)

/-- Every part is a piece of the whole, `done` being what was cut off before. -/
theorem Tiles.of_append (h : Tiles limit offset rest segs) (done : List α)
    (hdone : done.length = offset) : ∀ s ∈ segs, s.Of (done ++ rest) := by
  induction h generalizing done with
  | nil => intro s hs; cases hs
  | @cons offset part rest segs _ _ _ ih =>
    intro s hs
    rcases List.mem_cons.mp hs with rfl | hs
    · refine ⟨by simp [Segment.stop, hdone], ?_⟩
      rintro i ⟨hlo, hhi⟩
      simp only [Segment.stop] at hlo hhi ⊢
      rw [List.getElem?_append_right (by omega), List.getElem?_append_left (by omega), hdone]
    · have hpart : (done ++ part).length = offset + part.length := by
        rw [List.length_append, hdone]
      have := ih (done ++ part) hpart s hs
      rwa [List.append_assoc] at this

theorem Tiles.of_target (h : Tiles limit 0 rest segs) : ∀ s ∈ segs, s.Of rest :=
  h.of_append [] rfl

-- ---------------------------------------------------------------------------
-- Landing
-- ---------------------------------------------------------------------------

/-- `out` is `buf` after the segment was written into it: the range holds the
payload, the other bytes stay, and the buffer grows if the range asks for it.
What fills a gap between the old end and the range is left open. -/
structure Writes (s : Segment α) (buf out : List α) : Prop where
  inside : ∀ i, s.Covers i → out[i]? = s.payload[i - s.offset]?
  outside : ∀ i, i < buf.length → ¬ s.Covers i → out[i]? = buf[i]?
  length : out.length = max buf.length s.stop

/-- The write that fills a gap with `fill`. -/
def overwrite (fill : α) (s : Segment α) (buf : List α) : List α :=
  let long := buf ++ List.replicate (s.stop - buf.length) fill
  long.take s.offset ++ s.payload ++ long.drop s.stop

theorem writes_overwrite (fill : α) (s : Segment α) (buf : List α) :
    Writes s buf (overwrite fill s buf) := by
  have hlong : (buf ++ List.replicate (s.stop - buf.length) fill).length =
      max buf.length s.stop := by
    rw [List.length_append, List.length_replicate]
    omega
  have hstop : s.stop = s.offset + s.payload.length := rfl
  have hhead : ((buf ++ List.replicate (s.stop - buf.length) fill).take s.offset).length =
      s.offset := by
    rw [List.length_take]
    omega
  refine ⟨?_, ?_, ?_⟩
  · rintro i ⟨hlo, hhi⟩
    rw [overwrite, List.append_assoc, List.getElem?_append_right (by omega), hhead,
      List.getElem?_append_left (by omega)]
  · intro i hi hc
    have hbuf : (buf ++ List.replicate (s.stop - buf.length) fill)[i]? = buf[i]? :=
      List.getElem?_append_left hi
    rw [overwrite, List.append_assoc]
    by_cases hlo : i < s.offset
    · rw [List.getElem?_append_left (by omega), List.getElem?_take_of_lt hlo, hbuf]
    · have hhi : s.stop ≤ i := by
        by_contra hlt
        exact hc ⟨by omega, by omega⟩
      rw [List.getElem?_append_right (by omega), hhead, List.getElem?_append_right (by omega),
        List.getElem?_drop, ← hbuf]
      congr 1
      omega
  · simp only [overwrite, List.length_append, hhead, List.length_drop, List.length_replicate]
    omega

/-- The segments written one after the other, first to last. -/
inductive Landing : List (Segment α) → List α → List α → Prop
  | nil (buf : List α) : Landing [] buf buf
  | cons {s : Segment α} {landed : List (Segment α)} {buf mid out : List α}
      (hs : Writes s buf mid) (hrest : Landing landed mid out) :
      Landing (s :: landed) buf out

variable {s : Segment α} {landed : List (Segment α)} {buf mid out target : List α}

/-- A write of a piece of `target` keeps every position that already agrees. -/
theorem Writes.keeps (h : Writes s buf out) (hof : s.Of target) {i : Nat}
    (hlt : i < target.length) (hi : buf[i]? = target[i]?) : out[i]? = target[i]? := by
  by_cases hc : s.Covers i
  · rw [h.inside i hc, hof.agrees i hc]
  · have hbuf : i < buf.length := by
      by_contra hge
      rw [List.getElem?_eq_none (by omega), List.getElem?_eq_getElem hlt] at hi
      cases hi
    rw [h.outside i hbuf hc, hi]

/-- A write of a piece of `target` does not reach past its end. -/
theorem Writes.beyond (h : Writes s buf out) (hof : s.Of target) {i : Nat}
    (hi : target.length ≤ i) : out[i]? = buf[i]? := by
  have hstop := hof.stop_le
  by_cases hbuf : i < buf.length
  · refine h.outside i hbuf ?_
    rintro ⟨_, hhi⟩
    omega
  · have hlen := h.length
    rw [List.getElem?_eq_none (by omega), List.getElem?_eq_none (by omega)]

theorem Landing.keeps (h : Landing landed buf out) (hof : ∀ s ∈ landed, s.Of target) {i : Nat}
    (hlt : i < target.length) (hi : buf[i]? = target[i]?) : out[i]? = target[i]? := by
  induction h with
  | nil => exact hi
  | cons hs _ ih =>
    rw [List.forall_mem_cons] at hof
    exact ih hof.2 (hs.keeps hof.1 hlt hi)

/-- Once a part has landed its range agrees with the target, and later writes
keep it so. -/
theorem Landing.covered (h : Landing landed buf out) (hof : ∀ s ∈ landed, s.Of target) {i : Nat}
    (hc : ∃ s ∈ landed, s.Covers i) : out[i]? = target[i]? := by
  induction h with
  | nil =>
    obtain ⟨s, hs, _⟩ := hc
    cases hs
  | @cons s landed buf mid out hs hrest ih =>
    rw [List.forall_mem_cons] at hof
    rw [List.exists_mem_cons_iff] at hc
    rcases hc with hc | hc
    · have hlt : i < target.length := lt_of_lt_of_le hc.2 hof.1.stop_le
      refine hrest.keeps hof.2 hlt ?_
      rw [hs.inside i hc, hof.1.agrees i hc]
    · exact ih hof.2 hc

theorem Landing.beyond (h : Landing landed buf out) (hof : ∀ s ∈ landed, s.Of target) {i : Nat}
    (hi : target.length ≤ i) : out[i]? = buf[i]? := by
  induction h with
  | nil => rfl
  | cons hs _ ih =>
    rw [List.forall_mem_cons] at hof
    rw [ih hof.2, hs.beyond hof.1 hi]

/-- **All landed.** When the landed pieces cover the target the buffer starts
with it. -/
theorem Landing.take_eq (h : Landing landed buf out) (hof : ∀ s ∈ landed, s.Of target)
    (hcover : ∀ i, i < target.length → ∃ s ∈ landed, s.Covers i) :
    out.take target.length = target := by
  apply List.ext_getElem?
  intro i
  by_cases hi : i < target.length
  · rw [List.getElem?_take_of_lt hi, h.covered hof (hcover i hi)]
  · rw [List.getElem?_eq_none (by rw [List.length_take]; omega), List.getElem?_eq_none (by omega)]

/-- Whatever has landed so far, nothing past the target's end was written. -/
theorem Landing.drop_eq (h : Landing landed buf out) (hof : ∀ s ∈ landed, s.Of target) :
    out.drop target.length = buf.drop target.length := by
  apply List.ext_getElem?
  intro i
  rw [List.getElem?_drop, List.getElem?_drop, h.beyond hof (Nat.le_add_right _ _)]

end Segments
