import Mathlib.Data.List.Infix

/-!
# Text — strings searched, split and joined

`split` and `join` at a character are inverse where the pieces do not have it: one way for every
string (`join_split`), the other for every list of such pieces but the empty one (`split_join`),
since nothing at all is split into one empty piece. `words` has no empty pieces; a text without
blanks is one word, also between others (`words_append`, `words_of_forall`).

`pieces` are those between the occurrences of a whole text; the first one goes up to the first
occurrence (`pieces_append_self`, `pieces_eq_singleton`, `not_infix_of_pieces`).

`erase` takes the matches of a pattern out of a text (`erase_append`, `erase_match`).
-/

namespace Text

/-- `sub in s` -/
def contains (s sub : String) : Bool := decide (sub.toList <:+: s.toList)

/-- `s.split(c)` -/
def split (s : String) (c : Char) : List String := (s.toList.splitOn c).map String.ofList

/-- `c.join(xs)` -/
def join (c : Char) (xs : List String) : String :=
  String.ofList ([c].intercalate (xs.map String.toList))

variable {c : Char}

theorem toList_join (xs : List String) :
    (join c xs).toList = [c].intercalate (xs.map String.toList) := String.toList_ofList

theorem join_split (s : String) : join c (split s c) = s := by
  rw [join, split, List.map_map, show String.toList ∘ String.ofList = id from
    funext fun _ => String.toList_ofList, List.map_id, List.intercalate_splitOn,
    String.ofList_toList]

theorem split_join {xs : List String} (h : ∀ x ∈ xs, c ∉ x.toList) (hne : xs ≠ []) :
    split (join c xs) c = xs := by
  rw [split, toList_join, List.splitOn_intercalate, List.map_map,
    show String.ofList ∘ String.toList = id from funext fun _ => String.ofList_toList, List.map_id]
  · simpa using h
  · simpa using hne

@[simp] theorem split_empty : split "" c = [""] := rfl

/-- A text without the character is one piece. -/
theorem split_of_notMem {s : String} (h : c ∉ s.toList) : split s c = [s] := by
  rw [split, List.splitOn_eq_singleton h, List.map_singleton, String.ofList_toList]

theorem split_append_cons {s t : String} (h : c ∉ s.toList) :
    split (s ++ String.singleton c ++ t) c = s :: split t c := by
  rw [split, String.toList_append, String.toList_append, String.toList_singleton, List.append_assoc,
    List.singleton_append, List.splitOn_append_cons_self_of_not_mem h, List.map_cons,
    String.ofList_toList, split]

theorem forall_of_mem_splitOnP {p : Char → Bool} {xs x : List Char} (hx : x ∈ xs.splitOnP p) :
    ∀ d ∈ x, p d = false := by
  induction xs generalizing x with
  | nil =>
    rw [List.splitOnP_nil, List.mem_singleton] at hx
    simp [hx]
  | cons d xs ih =>
    rw [List.splitOnP_cons_eq_if_modifyHead] at hx
    split at hx
    · rcases List.mem_cons.mp hx with rfl | hx
      · simp
      · exact ih hx
    · next hd =>
      -- the first piece of the rest has one character more
      cases hpieces : xs.splitOnP p with
      | nil => exact absurd hpieces (List.splitOnP_ne_nil p xs)
      | cons piece pieces =>
        rw [hpieces] at ih
        rw [hpieces, List.modifyHead_cons] at hx
        rcases List.mem_cons.mp hx with rfl | hx
        · rw [List.forall_mem_cons]
          exact ⟨by simpa using hd, ih List.mem_cons_self⟩
        · exact ih (List.mem_cons_of_mem piece hx)

theorem notMem_of_mem_splitOn {xs x : List Char} (hx : x ∈ xs.splitOn c) : c ∉ x := by
  intro hc
  rw [List.splitOn_eq_splitOnP] at hx
  have := forall_of_mem_splitOnP hx c hc
  simp at this

theorem notMem_of_mem_split {s x : String} (hx : x ∈ split s c) : c ∉ x.toList := by
  obtain ⟨piece, hpiece, rfl⟩ := List.mem_map.mp hx
  rw [String.toList_ofList]
  exact notMem_of_mem_splitOn hpiece

theorem mem_intercalate {xs : List (List Char)} {x : List Char} {d : Char} (hx : x ∈ xs)
    (hd : d ∈ x) : d ∈ [c].intercalate xs := by
  induction xs with
  | nil => cases hx
  | cons y ys ih =>
    cases ys with
    | nil =>
      rw [List.mem_singleton] at hx
      rw [List.intercalate_singleton, ← hx]
      exact hd
    | cons z zs =>
      rw [List.intercalate_cons_cons]
      rcases List.mem_cons.mp hx with rfl | hx
      · exact List.mem_append_left _ (List.mem_append_left _ hd)
      · exact List.mem_append_right _ (ih hx)

/-- The pieces have no other characters than the whole. -/
theorem mem_of_mem_split {s x : String} {d : Char} (hx : x ∈ split s c) (hd : d ∈ x.toList) :
    d ∈ s.toList := by
  have hwhole : s.toList = [c].intercalate ((split s c).map String.toList) := by
    rw [← toList_join, join_split]
  rw [hwhole]
  exact mem_intercalate (List.mem_map.mpr ⟨x, hx, rfl⟩) hd

section Words

variable {p : Char → Bool}

/-- `s.split()`: the pieces between the characters of `p`, without the empty ones. -/
def words (p : Char → Bool) (s : String) : List String :=
  ((s.toList.splitOnP p).filter (· ≠ [])).map String.ofList

theorem words_append_singleton {d : Char} (hd : p d = true) (s t : String) :
    words p (s ++ String.singleton d ++ t) = words p s ++ words p t := by
  rw [words, String.toList_append, String.toList_append, String.toList_singleton, List.append_assoc,
    List.singleton_append, List.splitOnP_append_cons _ _ hd, List.filter_append, List.map_append]
  rfl

theorem words_append (hp : p ' ' = true) (s t : String) :
    words p (s ++ " " ++ t) = words p s ++ words p t := words_append_singleton hp s t

theorem words_of_forall {s : String} (h : ∀ d ∈ s.toList, p d = false) (hne : s ≠ "") :
    words p s = [s] := by
  have : s.toList ≠ [] := by simpa using hne
  simp [words, List.splitOnP_eq_singleton h, this]

theorem forall_of_mem_words {s x : String} (hx : x ∈ words p s) : ∀ d ∈ x.toList, p d = false := by
  obtain ⟨piece, hpiece, rfl⟩ := List.mem_map.mp hx
  rw [String.toList_ofList]
  exact forall_of_mem_splitOnP (List.mem_of_mem_filter hpiece)

end Words

section Pieces

/-- The pieces between the occurrences of `sep`; the first `skip` characters are still of one. -/
def pieces (sep : List Char) : (skip : Nat) → List Char → List (List Char)
  | _, [] => [[]]
  | skip + 1, _ :: rest => pieces sep skip rest
  | 0, d :: rest =>
    if sep.isPrefixOf (d :: rest) then [] :: pieces sep (sep.length - 1) rest
    else (pieces sep 0 rest).modifyHead (d :: ·)

/-- `s.split(sep)`, of a separator that is not empty -/
def splitAt (s sep : String) : List String := (pieces sep.toList 0 s.toList).map String.ofList

variable {sep : List Char}

theorem pieces_skip (xs rest : List Char) :
    pieces sep xs.length (xs ++ rest) = pieces sep 0 rest := by
  induction xs with
  | nil => rfl
  | cons d xs ih => exact ih

theorem pieces_ne_nil (sep : List Char) (skip : Nat) (s : List Char) : pieces sep skip s ≠ [] := by
  induction s generalizing skip with
  | nil => simp [pieces]
  | cons d s ih =>
    rcases skip with _ | skip
    · rw [pieces]
      split
      · exact List.cons_ne_nil _ _
      · rw [ne_eq, List.modifyHead_eq_nil_iff]
        exact ih 0
    · exact ih skip

theorem pieces_append_self (hsep : sep ≠ []) (rest : List Char) :
    pieces sep 0 (sep ++ rest) = [] :: pieces sep 0 rest := by
  obtain ⟨d, xs, rfl⟩ := List.exists_cons_of_ne_nil hsep
  rw [List.cons_append, pieces, if_pos]
  · rw [List.length_cons, Nat.add_sub_cancel, pieces_skip]
  · rw [List.isPrefixOf_iff_prefix, ← List.cons_append]
    exact List.prefix_append _ _

theorem pieces_eq_singleton {s : List Char} (h : ¬sep <:+: s) : pieces sep 0 s = [s] := by
  induction s with
  | nil => rfl
  | cons d s ih =>
    rw [pieces, if_neg, ih fun hin => h (hin.trans (List.suffix_cons d s).isInfix)]
    · rfl
    · rw [List.isPrefixOf_iff_prefix]
      exact fun hprefix => h hprefix.isInfix

/-- The first piece is what comes before the first occurrence. -/
theorem not_infix_of_pieces (hsep : sep ≠ []) {s first : List Char} {more : List (List Char)}
    (h : pieces sep 0 s = first :: more) : first <+: s ∧ ¬sep <:+: first := by
  induction s generalizing first more with
  | nil =>
    obtain ⟨rfl, -⟩ := List.cons.inj h
    exact ⟨List.prefix_rfl, by simpa using hsep⟩
  | cons d s ih =>
    rw [pieces] at h
    split at h
    · obtain ⟨rfl, -⟩ := List.cons.inj h
      exact ⟨List.nil_prefix, by simpa using hsep⟩
    · next hprefix =>
      obtain ⟨piece, others, hpieces⟩ := List.exists_cons_of_ne_nil (pieces_ne_nil sep 0 s)
      obtain ⟨hpiece, hfree⟩ := ih hpieces
      rw [hpieces, List.modifyHead_cons] at h
      obtain ⟨rfl, -⟩ := List.cons.inj h
      refine ⟨(List.prefix_cons_inj d).mpr hpiece, fun hinfix => ?_⟩
      rcases List.infix_cons_iff.mp hinfix with hstart | hlater
      · exact hprefix (List.isPrefixOf_iff_prefix.mpr
          (hstart.trans ((List.prefix_cons_inj d).mpr hpiece)))
      · exact hfree hlater

end Pieces

section Matches

/-- `re.sub(pattern, '', s)`: `found s` is the length of the match at the start of `s`, zero for
none; the first `skip` characters are still of one. -/
def erase (found : List Char → Nat) : (skip : Nat) → List Char → List Char
  | _, [] => []
  | skip + 1, _ :: rest => erase found skip rest
  | 0, d :: rest =>
    match found (d :: rest) with
    | 0 => d :: erase found 0 rest
    | skip + 1 => erase found skip rest

variable {found : List Char → Nat}

theorem erase_skip (xs rest : List Char) :
    erase found xs.length (xs ++ rest) = erase found 0 rest := by
  induction xs with
  | nil => rfl
  | cons d xs ih => exact ih

/-- What no match starts in stays. -/
theorem erase_append {xs rest : List Char}
    (h : ∀ tail, tail ≠ [] → tail <:+ xs → found (tail ++ rest) = 0) :
    erase found 0 (xs ++ rest) = xs ++ erase found 0 rest := by
  induction xs with
  | nil => rfl
  | cons d xs ih =>
    have hnone := h (d :: xs) (List.cons_ne_nil d xs) List.suffix_rfl
    rw [List.cons_append] at hnone
    rw [List.cons_append, erase, hnone]
    refine congrArg (d :: ·) (ih fun tail hne htail => ?_)
    exact h tail hne (htail.trans (List.suffix_cons d xs))

theorem erase_match {xs rest : List Char} (hne : xs ≠ []) (h : found (xs ++ rest) = xs.length) :
    erase found 0 (xs ++ rest) = erase found 0 rest := by
  obtain ⟨d, xs, rfl⟩ := List.exists_cons_of_ne_nil hne
  rw [List.cons_append, List.length_cons] at h
  rw [List.cons_append, erase, h]
  exact erase_skip xs rest

end Matches

end Text
