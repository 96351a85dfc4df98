import NeonTests.Lib.Dict
import NeonTests.Lib.Fallible
import NeonTests.Lib.Occurrences
import NeonTests.Lib.Text

/-!
# Paths — those of `pathlib`, and files under them

A `PurePath` is a root and parts that are neither empty nor the current directory; `..` is a part
like any other. What `str` writes is read back (`parse_str`), and so are parts joined by slashes
(`parse_join`).

`writeFile` makes the directories above a file, and fails where a file is in their place or a
directory in its own. Files written one after the other: the last one with a path is the one that
is there (`get?_of_writeAll`), and none fails if no path is above another (`writeAll_ok`).
-/

namespace Pathlib

open Text

-- ---------------------------------------------------------------------------
-- Paths
-- ---------------------------------------------------------------------------

/-- What can stand between two slashes of a path. -/
def IsPart (x : String) : Prop := x ≠ "" ∧ x ≠ "." ∧ '/' ∉ x.toList

instance (x : String) : Decidable (IsPart x) := inferInstanceAs (Decidable (_ ∧ _ ∧ _))

/-- Two leading slashes are kept, three or more are one. -/
inductive Root
  | relative
  | slash
  | doubleSlash
  deriving DecidableEq, Repr

def Root.str : Root → String
  | relative => ""
  | slash => "/"
  | doubleSlash => "//"

def rootOf : List Char → Root
  | '/' :: '/' :: '/' :: _ => .slash
  | '/' :: '/' :: _ => .doubleSlash
  | '/' :: _ => .slash
  | _ => .relative

/-- `PurePosixPath` -/
structure PurePath where
  root : Root
  parts : List String
  isPart : ∀ x ∈ parts, IsPart x
  deriving DecidableEq

/-- `Path(s)` -/
def PurePath.parse (s : String) : PurePath where
  root := rootOf s.toList
  parts := (split s '/').filter fun x => x ≠ "" ∧ x ≠ "."
  isPart := by
    intro x hx
    obtain ⟨hmem, hpart⟩ := List.mem_filter.mp hx
    obtain ⟨hne, hdot⟩ := of_decide_eq_true hpart
    exact ⟨hne, hdot, notMem_of_mem_split hmem⟩

/-- `str(p)` -/
def PurePath.str (p : PurePath) : String :=
  if p.root = .relative ∧ p.parts = [] then "." else p.root.str ++ join '/' p.parts

/-- `p / q` -/
def PurePath.div (p q : PurePath) : PurePath :=
  match q.root with
  | .relative =>
    ⟨p.root, p.parts ++ q.parts, fun x hx =>
      (List.mem_append.mp hx).elim (p.isPart x) (q.isPart x)⟩
  | _ => q

instance : HDiv PurePath PurePath PurePath := ⟨PurePath.div⟩

/-- `p / s` -/
instance : HDiv PurePath String PurePath := ⟨fun p s => p.div (.parse s)⟩

variable {p q : PurePath} {s : String}

theorem PurePath.ext_iff' : p = q ↔ p.root = q.root ∧ p.parts = q.parts := by
  cases p
  cases q
  simp

theorem parts_parse (s : String) :
    (PurePath.parse s).parts = (split s '/').filter fun x => x ≠ "" ∧ x ≠ "." := rfl

theorem div_parse (p : PurePath) (s : String) : p / s = p / PurePath.parse s := rfl

theorem div_of_relative (h : q.root = .relative) :
    (p / q).root = p.root ∧ (p / q).parts = p.parts ++ q.parts := by
  show (p.div q).root = _ ∧ (p.div q).parts = _
  rw [PurePath.div]
  split
  · exact ⟨rfl, rfl⟩
  · next hroot => exact absurd h hroot

theorem rootOf_of_head {xs : List Char} (h : ∀ c ∈ xs.head?, c ≠ '/') :
    rootOf xs = .relative ∧ rootOf ('/' :: xs) = .slash ∧
      rootOf ('/' :: '/' :: xs) = .doubleSlash := by
  rcases xs with _ | ⟨c, xs⟩
  · exact ⟨rfl, rfl, rfl⟩
  · have hc : c ≠ '/' := h c rfl
    simp [rootOf, hc]

theorem head?_join {xs : List String} (h : ∀ x ∈ xs, IsPart x) :
    ∀ c ∈ (join '/' xs).toList.head?, c ≠ '/' := by
  rcases xs with _ | ⟨x, xs⟩
  · intro c hc
    cases hc
  · obtain ⟨hne, -, hslash⟩ := h x List.mem_cons_self
    have hx : x.toList ≠ [] := by simpa using hne
    obtain ⟨d, ds, hd⟩ := List.exists_cons_of_ne_nil hx
    intro c hc
    have hcd : c = d := by
      rw [toList_join, List.map_cons, hd] at hc
      rcases xs with _ | ⟨y, ys⟩
      · simpa [eq_comm] using hc
      · simpa [List.intercalate_cons_cons, eq_comm] using hc
    rw [hcd]
    rintro rfl
    exact hslash (hd ▸ List.mem_cons_self)

theorem filter_split_join {xs : List String} (h : ∀ x ∈ xs, IsPart x) :
    (split (join '/' xs) '/').filter (fun x => x ≠ "" ∧ x ≠ ".") = xs := by
  rcases xs with _ | ⟨x, xs⟩
  · rfl
  · rw [split_join (fun y hy => (h y hy).2.2) (List.cons_ne_nil x xs), List.filter_eq_self]
    exact fun y hy => decide_eq_true ⟨(h y hy).1, (h y hy).2.1⟩

theorem split_slash_append (s : String) : split ("/" ++ s) '/' = "" :: split s '/' :=
  split_append_cons (c := '/') (s := "") (t := s) (by simp)

/-- Parts joined by slashes are read back. -/
theorem parse_join {xs : List String} (h : ∀ x ∈ xs, IsPart x) :
    PurePath.parse (join '/' xs) = ⟨.relative, xs, h⟩ :=
  PurePath.ext_iff'.mpr ⟨(rootOf_of_head (head?_join h)).1, filter_split_join h⟩

/-- A written path is read back. -/
theorem parse_str (p : PurePath) : PurePath.parse p.str = p := by
  obtain ⟨root, parts, h⟩ := p
  have hhead := rootOf_of_head (head?_join h)
  rw [PurePath.str]
  split
  · next hdot =>
    obtain ⟨rfl, rfl⟩ : root = .relative ∧ parts = [] := hdot
    rfl
  · rcases root with _ | _ | _
    · rw [show Root.relative.str = "" from rfl, String.empty_append]
      exact parse_join h
    · refine PurePath.ext_iff'.mpr ⟨?_, ?_⟩
      · show rootOf ("/" ++ join '/' parts).toList = .slash
        rw [String.toList_append]
        exact hhead.2.1
      · show (split ("/" ++ join '/' parts) '/').filter _ = parts
        rw [split_slash_append]
        exact filter_split_join h
    · refine PurePath.ext_iff'.mpr ⟨?_, ?_⟩
      · show rootOf ("//" ++ join '/' parts).toList = .doubleSlash
        rw [String.toList_append]
        exact hhead.2.2
      · show (split ("//" ++ join '/' parts) '/').filter _ = parts
        rw [show "//" = "/" ++ "/" from rfl, String.append_assoc, split_slash_append,
          split_slash_append]
        exact filter_split_join h

theorem str_injective : Function.Injective PurePath.str := by
  intro p q h
  rw [← parse_str p, h, parse_str]

theorem str_ne_empty (p : PurePath) : p.str ≠ "" := by
  intro h
  have hempty : p = PurePath.parse "" := by rw [← h, parse_str]
  rw [hempty] at h
  exact absurd h (by decide)

theorem join_singleton (x : String) : join '/' [x] = x := by
  rw [join, List.map_singleton, List.intercalate_singleton, String.ofList_toList]

theorem join_cons {x : String} {xs : List String} (hxs : xs ≠ []) :
    join '/' (x :: xs) = x ++ "/" ++ join '/' xs := by
  obtain ⟨y, ys, rfl⟩ := List.exists_cons_of_ne_nil hxs
  rw [← String.toList_inj, String.toList_append, String.toList_append, toList_join, toList_join,
    List.map_cons, List.map_cons, List.intercalate_cons_cons]
  rfl

theorem join_append {xs ys : List String} (hxs : xs ≠ []) (hys : ys ≠ []) :
    join '/' (xs ++ ys) = join '/' xs ++ "/" ++ join '/' ys := by
  induction xs with
  | nil => exact absurd rfl hxs
  | cons x xs ih =>
    rcases xs with _ | ⟨z, xs⟩
    · rw [List.singleton_append, join_cons hys]
      rw [join_singleton]
    · rw [List.cons_append, join_cons (by simp), ih (List.cons_ne_nil z xs),
        join_cons (List.cons_ne_nil z xs)]
      simp only [String.append_assoc]

/-- A path below another one is written behind it. -/
theorem str_div (hp : p.parts ≠ []) (hroot : q.root = .relative) (hq : q.parts ≠ []) :
    (p / q).str = p.str ++ "/" ++ join '/' q.parts := by
  have hdiv := div_of_relative (p := p) hroot
  rw [PurePath.str, PurePath.str, if_neg (by simp [hdiv.2, hp]), if_neg (by simp [hp]), hdiv.1,
    hdiv.2, join_append hp hq]
  simp only [String.append_assoc]

theorem join_parse_prefix_of_notMem {y : String} (h : '/' ∉ y.toList) :
    (join '/' (PurePath.parse y).parts).toList <+: y.toList := by
  rw [parts_parse, split_of_notMem h, List.filter_cons, List.filter_nil]
  split
  · rw [join_singleton]
  · exact List.nil_prefix

/-- The parts of what joined parts begin with are what it begins with. -/
theorem join_parse_prefix {xs : List String} (h : ∀ x ∈ xs, IsPart x) {y : String}
    (hy : y.toList <+: (join '/' xs).toList) :
    (join '/' (PurePath.parse y).parts).toList <+: y.toList := by
  induction xs generalizing y with
  | nil =>
    obtain rfl : y = "" := String.toList_inj.mp (List.prefix_nil.mp hy)
    exact List.nil_prefix
  | cons x xs ih =>
    have hx := (h x List.mem_cons_self).2.2
    by_cases hslash : '/' ∈ y.toList
    · have hxs : xs ≠ [] := by
        rintro rfl
        rw [join_singleton] at hy
        exact hx (hy.subset hslash)
      -- the text goes on behind the first part
      obtain ⟨front, rest, hcut, hfront⟩ := List.eq_append_cons_of_mem hslash
      obtain ⟨more, hmore⟩ := hy
      rw [join_cons hxs, String.toList_append, String.toList_append, List.append_assoc, hcut,
        List.append_assoc, List.cons_append] at hmore
      obtain ⟨rfl, hrest⟩ := Occurrences.cut_inj hfront hx hmore
      obtain rfl : y = x ++ "/" ++ String.ofList rest := by
        rw [← String.toList_inj, hcut]
        simp
      have htail := ih (fun z hz => h z (List.mem_cons_of_mem x hz)) (y := String.ofList rest)
        ⟨more, by rw [String.toList_ofList]; exact hrest⟩
      have hparts : (PurePath.parse (x ++ "/" ++ String.ofList rest)).parts =
          x :: (PurePath.parse (String.ofList rest)).parts := by
        have hpart := h x List.mem_cons_self
        rw [parts_parse, parts_parse, show "/" = String.singleton '/' from rfl,
          split_append_cons hx, List.filter_cons_of_pos]
        exact decide_eq_true ⟨hpart.1, hpart.2.1⟩
      rw [hparts]
      by_cases hempty : (PurePath.parse (String.ofList rest)).parts = []
      · rw [hempty, join_singleton, String.append_assoc, String.toList_append]
        exact List.prefix_append _ _
      · rw [join_cons hempty]
        simp only [String.toList_append] at htail ⊢
        exact (List.prefix_append_right_inj _).mpr htail
    · exact join_parse_prefix_of_notMem hslash

/-- One part is read as it is. -/
theorem parse_part (h : IsPart s) : PurePath.parse s = ⟨.relative, [s], by simpa using h⟩ := by
  have hparts : ∀ x ∈ [s], IsPart x := by simpa using h
  have := parse_join hparts
  rwa [join_singleton] at this

-- ---------------------------------------------------------------------------
-- Files
-- ---------------------------------------------------------------------------

inductive OSError
  | isADirectory
  | notADirectory
  deriving DecidableEq, Repr

/-- `p` is a directory on the way to `q`. -/
def Above (p q : PurePath) : Prop :=
  p.root = q.root ∧ p.parts <+: q.parts ∧ p.parts ≠ q.parts

instance : Decidable (Above p q) := inferInstanceAs (Decidable (_ ∧ _ ∧ _))

variable {β : Type} {home : PurePath} {files files' : Dict PurePath β}

/-- A file is written after its directories are made; `home` is a directory all along. -/
def writeFile (home : PurePath) (files : Dict PurePath β) (p : PurePath) (body : β) :
    Except OSError (Dict PurePath β) :=
  if p = home ∨ Above p home ∨ ∃ q ∈ files.keys, Above p q then .error .isADirectory
  else if ∃ q ∈ files.keys, Above q p then .error .notADirectory
  else .ok (files.set p body)

def writeAll (home : PurePath) (writes : List (PurePath × β)) (files : Dict PurePath β) :
    Except OSError (Dict PurePath β) :=
  writes.foldlM (fun files w => writeFile home files w.1 w.2) files

/-- What the last write to `p` wrote. -/
def lastBody (p : PurePath) : List (PurePath × β) → Option β
  | [] => none
  | w :: writes => (lastBody p writes).or (if w.1 = p then some w.2 else none)

theorem lastBody_append (p : PurePath) (writes more : List (PurePath × β)) :
    lastBody p (writes ++ more) = (lastBody p more).or (lastBody p writes) := by
  induction writes with
  | nil => rw [List.nil_append, lastBody, Option.or_none]
  | cons w writes ih => rw [List.cons_append, lastBody, ih, Option.or_assoc, lastBody]

theorem writeFile_eq_ok {body : β} (h : writeFile home files p body = .ok files') :
    files' = files.set p body := by
  rw [writeFile] at h
  split at h
  · cases h
  · split at h
    · cases h
    · exact (Except.ok.inj h).symm

theorem writeAll_cons (w : PurePath × β) (writes : List (PurePath × β)) :
    writeAll home (w :: writes) files =
      writeFile home files w.1 w.2 >>= writeAll home writes := rfl

theorem get?_of_writeAll {writes : List (PurePath × β)}
    (h : writeAll home writes files = .ok files') (p : PurePath) :
    files'.get? p = (lastBody p writes).or (files.get? p) := by
  induction writes generalizing files with
  | nil =>
    rw [← Except.ok.inj h]
    rfl
  | cons w writes ih =>
    rw [writeAll_cons] at h
    obtain ⟨next, hnext, hrest⟩ := Fallible.bind_eq_ok.mp h
    rw [ih hrest, writeFile_eq_ok hnext, Dict.get?_set, lastBody]
    by_cases hp : w.1 = p
    · subst hp
      simp
    · simp [hp]

theorem mem_of_lastBody {writes : List (PurePath × β)} {body : β}
    (h : lastBody p writes = some body) : (p, body) ∈ writes := by
  induction writes with
  | nil => cases h
  | cons w writes ih =>
    rw [lastBody, Option.or_eq_some_iff] at h
    rcases h with h | ⟨-, h⟩
    · exact List.mem_cons_of_mem w (ih h)
    · split at h
      · next hp =>
        rw [← hp, ← Option.some.inj h]
        exact List.mem_cons_self
      · cases h

theorem lastBody_ne_none {writes : List (PurePath × β)} {w : PurePath × β} (hw : w ∈ writes) :
    lastBody w.1 writes ≠ none := by
  induction writes with
  | nil => cases hw
  | cons v writes ih =>
    rw [lastBody, ne_eq, Option.or_eq_none_iff]
    rintro ⟨hrest, hhead⟩
    rcases List.mem_cons.mp hw with rfl | hw
    · simp at hhead
    · exact ih hw hrest

/-- Files none of which is above another can all be written. -/
theorem writeAll_ok {S : PurePath → Prop} (hhome : ∀ p, S p → p ≠ home ∧ ¬Above p home)
    (hapart : ∀ p q, S p → S q → ¬Above p q) {writes : List (PurePath × β)}
    (hwrites : ∀ w ∈ writes, S w.1) (hfiles : ∀ p ∈ files.keys, S p) :
    ∃ files', writeAll home writes files = .ok files' := by
  induction writes generalizing files with
  | nil => exact ⟨files, rfl⟩
  | cons w writes ih =>
    have hw := hwrites w List.mem_cons_self
    have hwrite : writeFile home files w.1 w.2 = .ok (files.set w.1 w.2) := by
      rw [writeFile, if_neg, if_neg]
      · rintro ⟨q, hq, habove⟩
        exact hapart q w.1 (hfiles q hq) hw habove
      · rintro (heq | habove | ⟨q, hq, habove⟩)
        · exact (hhome w.1 hw).1 heq
        · exact (hhome w.1 hw).2 habove
        · exact hapart w.1 q hw (hfiles q hq) habove
    rw [writeAll_cons, hwrite]
    refine ih (fun v hv => hwrites v (List.mem_cons_of_mem w hv)) fun p hp => ?_
    rw [Dict.mem_keys, Dict.get?_set] at hp
    by_cases hpw : w.1 = p
    · exact hpw ▸ hw
    · rw [if_neg hpw] at hp
      exact hfiles p (Dict.mem_keys.mpr hp)

end Pathlib
