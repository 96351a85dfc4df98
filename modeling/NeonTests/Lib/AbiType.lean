import NeonTests.Lib.Brackets
import NeonTests.Lib.Decimal

/-!
# The type language of the contract ABI

Elementary types, fixed and dynamic arrays, tuples. `canonical` is how a function's signature
writes a type: a tuple as its parenthesised components, an array with its suffix. `json` is how
the `type` field of an ABI in JSON writes it, where a tuple is only called so.

A canonical type is an item (`isItem_canonical`), so a signature's types can be read back.
-/

namespace AbiTypes

open Brackets Text

/-- The characters the type language uses itself. -/
def special : List Char := ['(', ')', ',', '[', ']']

/-- A name: of an elementary type, or of a function. -/
structure Word where
  text : String
  nonempty : text ≠ ""
  plain : ∀ c ∈ text.toList, c ∉ special

inductive AbiType
  | elementary (name : Word)
  | tuple (components : List AbiType)
  /-- `size` is `none` for a dynamic array -/
  | array (element : AbiType) (size : Option Nat)

/-- `[]` or `[k]` -/
def suffix : Option Nat → String
  | none => "[]"
  | some k => "[" ++ toString k ++ "]"

namespace AbiType

mutual

def canonical : AbiType → String
  | .elementary name => name.text
  | .tuple components => "(" ++ join ',' (canonicals components) ++ ")"
  | .array element size => element.canonical ++ suffix size

def canonicals : List AbiType → List String
  | [] => []
  | t :: ts => t.canonical :: canonicals ts

end

theorem canonicals_eq_map (ts : List AbiType) : canonicals ts = ts.map canonical := by
  induction ts with
  | nil => rfl
  | cons t ts ih => rw [canonicals, ih, List.map_cons]

/-- The type field in JSON. -/
def json : AbiType → String
  | .elementary name => name.text
  | .tuple _ => "tuple"
  | .array element size => element.json ++ suffix size

/-- A tuple, or an array of them. -/
def HasTuple : AbiType → Prop
  | .elementary _ => False
  | .tuple _ => True
  | .array element _ => element.HasTuple

/-- `name(t1,...,tn)` -/
def signature (name : String) (ts : List AbiType) : String :=
  name ++ "(" ++ join ',' (ts.map canonical) ++ ")"

-- ---------------------------------------------------------------------------
-- Items
-- ---------------------------------------------------------------------------

theorem notMem_suffix {c : Char} (hc : c.isDigit = false) (hopen : c ≠ '[') (hclose : c ≠ ']')
    (size : Option Nat) : c ∉ (suffix size).toList := by
  cases size with
  | none =>
    intro h
    rcases List.mem_pair.mp h with h | h
    · exact hopen h
    · exact hclose h
  | some k =>
    rw [suffix, String.toList_append, String.toList_append]
    intro h
    rcases List.mem_append.mp h with h | h
    · rcases List.mem_append.mp h with h | h
      · exact hopen (List.mem_singleton.mp h)
      · rw [Python.isDigit_of_mem_toString h] at hc
        cases hc
    · exact hclose (List.mem_singleton.mp h)

theorem suffix_ne_nil (size : Option Nat) : (suffix size).toList ≠ [] := by
  have hopen : '[' ∈ (suffix size).toList := by
    cases size with
    | none => exact List.mem_cons_self
    | some k =>
      rw [suffix, String.toList_append, String.toList_append]
      exact List.mem_append_left _ (List.mem_append_left _ List.mem_cons_self)
  exact List.ne_nil_of_mem hopen

theorem passes_suffix (depth : Nat) (size : Option Nat) : Passes depth (suffix size).toList :=
  passes_of_notMem (notMem_suffix (by decide) (by decide) (by decide) size)
    (notMem_suffix (by decide) (by decide) (by decide) size)
    (notMem_suffix (by decide) (by decide) (by decide) size)

theorem Word.passes (name : Word) (depth : Nat) : Passes depth name.text.toList :=
  passes_of_notMem (fun hc => name.plain _ hc (by decide)) (fun hc => name.plain _ hc (by decide))
    fun hc => name.plain _ hc (by decide)

mutual

theorem passes_canonical (depth : Nat) : ∀ t : AbiType, Passes depth t.canonical.toList
  | .elementary name => by
    rw [canonical]
    exact Word.passes name depth
  | .tuple components => by
    rw [canonical, String.toList_append, String.toList_append, toList_join]
    exact passes_brackets (passes_intercalate fun x hx => by
      obtain ⟨s, hs, rfl⟩ := List.mem_map.mp hx
      exact passes_canonicals (depth + 1) components s hs)
  | .array element size => by
    rw [canonical, String.toList_append]
    exact passes_append (passes_canonical depth element) (passes_suffix depth size)

theorem passes_canonicals (depth : Nat) :
    ∀ (ts : List AbiType), ∀ s ∈ canonicals ts, Passes depth s.toList
  | [] => fun s hs => by cases hs
  | t :: ts => fun s hs => by
    rcases List.mem_cons.mp hs with rfl | hs
    · exact passes_canonical depth t
    · exact passes_canonicals depth ts s hs

end

theorem canonical_ne_empty (t : AbiType) : t.canonical ≠ "" := by
  cases t with
  | elementary name => exact name.nonempty
  | tuple components =>
    intro h
    have hlist := congrArg String.toList h
    rw [canonical, String.toList_append, String.toList_append] at hlist
    cases hlist
  | array element size =>
    intro h
    have hlist := congrArg String.toList h
    rw [canonical, String.toList_append] at hlist
    exact suffix_ne_nil size (List.append_eq_nil_iff.mp hlist).2

theorem isItem_canonical (t : AbiType) : IsItem t.canonical :=
  ⟨canonical_ne_empty t, passes_canonical 0 t⟩

theorem passes_json (depth : Nat) : ∀ t : AbiType, Passes depth t.json.toList
  | .elementary name => by
    rw [json]
    exact Word.passes name depth
  | .tuple components => by
    rw [json]
    exact passes_plain (by simp)
  | .array element size => by
    rw [json, String.toList_append]
    exact passes_append (passes_json depth element) (passes_suffix depth size)

theorem json_ne_empty (t : AbiType) : t.json ≠ "" := by
  cases t with
  | elementary name => exact name.nonempty
  | tuple components =>
    rw [json]
    decide
  | array element size =>
    intro h
    have hlist := congrArg String.toList h
    rw [json, String.toList_append] at hlist
    exact suffix_ne_nil size (List.append_eq_nil_iff.mp hlist).2

theorem isItem_json (t : AbiType) : IsItem t.json := ⟨json_ne_empty t, passes_json 0 t⟩

-- ---------------------------------------------------------------------------
-- Arrays of arrays
-- ---------------------------------------------------------------------------

/-- The suffixes of an array of arrays, the innermost first. -/
def suffixes (sizes : List (Option Nat)) : String := sizes.foldl (fun s size => s ++ suffix size) ""

theorem suffixes_concat (sizes : List (Option Nat)) (size : Option Nat) :
    suffixes (sizes ++ [size]) = suffixes sizes ++ suffix size := by
  rw [suffixes, List.foldl_append]
  rfl

theorem close_notMem_suffixes (sizes : List (Option Nat)) : ')' ∉ (suffixes sizes).toList := by
  induction sizes using List.reverseRecOn with
  | nil => decide
  | append_singleton sizes size ih =>
    rw [suffixes_concat, String.toList_append, List.mem_append, not_or]
    exact ⟨ih, notMem_suffix (by decide) (by decide) (by decide) size⟩

def arrays (t : AbiType) (sizes : List (Option Nat)) : AbiType := sizes.foldl .array t

theorem arrays_concat (t : AbiType) (sizes : List (Option Nat)) (size : Option Nat) :
    t.arrays (sizes ++ [size]) = .array (t.arrays sizes) size := List.foldl_concat ..

theorem canonical_arrays (t : AbiType) (sizes : List (Option Nat)) :
    (t.arrays sizes).canonical = t.canonical ++ suffixes sizes := by
  induction sizes using List.reverseRecOn with
  | nil => exact (String.append_empty).symm
  | append_singleton sizes size ih =>
    rw [arrays_concat, canonical, ih, suffixes_concat, String.append_assoc]

theorem json_arrays (t : AbiType) (sizes : List (Option Nat)) :
    (t.arrays sizes).json = t.json ++ suffixes sizes := by
  induction sizes using List.reverseRecOn with
  | nil => exact (String.append_empty).symm
  | append_singleton sizes size ih =>
    rw [arrays_concat, json, ih, suffixes_concat, String.append_assoc]

theorem length_suffix_some (k : Nat) : 2 < (suffix (some k)).toList.length := by
  have hdigits : (toString k).toList ≠ [] := by
    rw [Nat.toString_eq_ofList_toDigits, String.toList_ofList]
    exact Nat.toDigits_ne_nil
  have hpos := List.length_pos_iff.mpr hdigits
  have hopen : "[".toList.length = 1 := rfl
  have hclose : "]".toList.length = 1 := rfl
  rw [suffix, String.toList_append, String.toList_append, List.length_append, List.length_append]
  omega

theorem length_suffix (size : Option Nat) : 2 ≤ (suffix size).toList.length := by
  cases size with
  | none => exact le_rfl
  | some k => exact (length_suffix_some k).le

/-- A dynamic array is not written like any other. -/
theorem suffixes_eq_dynamic_iff (sizes : List (Option Nat)) :
    suffixes sizes = "[]" ↔ sizes = [none] := by
  constructor
  · intro h
    have htwo : "[]".toList.length = 2 := rfl
    cases sizes using List.reverseRecOn with
    | nil => cases congrArg String.toList h
    | append_singleton sizes size =>
      have hlength : (suffixes (sizes ++ [size])).toList.length = "[]".toList.length := by rw [h]
      rw [suffixes_concat, String.toList_append, List.length_append, htwo] at hlength
      cases size with
      | some k =>
        have := length_suffix_some k
        omega
      | none =>
        cases sizes using List.reverseRecOn with
        | nil => rfl
        | append_singleton sizes size =>
          have hfirst := length_suffix size
          have hlast := length_suffix none
          rw [suffixes_concat, String.toList_append, List.length_append] at hlength
          omega
  · rintro rfl
    rfl

-- ---------------------------------------------------------------------------
-- Tuples
-- ---------------------------------------------------------------------------

/-- An opening bracket is written for a tuple, and for nothing else. -/
theorem open_mem_canonical_iff : ∀ t : AbiType, '(' ∈ t.canonical.toList ↔ t.HasTuple
  | .elementary name => by
    rw [canonical, HasTuple, iff_false]
    exact fun h => name.plain _ h (by decide)
  | .tuple components => by
    rw [canonical, HasTuple, iff_true, String.toList_append, String.toList_append]
    exact List.mem_append_left _ (List.mem_append_left _ List.mem_cons_self)
  | .array element size => by
    have hsuffix := notMem_suffix (c := '(') (by decide) (by decide) (by decide) size
    rw [canonical, HasTuple, String.toList_append, List.mem_append, or_iff_left hsuffix]
    exact open_mem_canonical_iff element

theorem notMem_canonical {c : Char} (hc : c = ',' ∨ c = ')') :
    ∀ t : AbiType, ¬ t.HasTuple → c ∉ t.canonical.toList
  | .elementary name, _ => by
    rw [canonical]
    refine fun h => name.plain _ h ?_
    rcases hc with rfl | rfl <;> decide
  | .tuple components, h => absurd trivial h
  | .array element size, h => by
    have hsuffix : c ∉ (suffix size).toList := by
      rcases hc with rfl | rfl
      · exact notMem_suffix (by decide) (by decide) (by decide) size
      · exact notMem_suffix (by decide) (by decide) (by decide) size
    rw [canonical, String.toList_append, List.mem_append, or_iff_left hsuffix]
    exact notMem_canonical hc element h

/-- Without tuples, and only then, the two spellings agree. -/
theorem json_eq_canonical_iff : ∀ t : AbiType, t.json = t.canonical ↔ ¬ t.HasTuple
  | .elementary name => by simp [json, canonical, HasTuple]
  | .tuple components => by
    rw [HasTuple, not_true_eq_false, iff_false, json, canonical]
    intro h
    have hlist := congrArg String.toList h
    rw [String.toList_append, String.toList_append] at hlist
    cases hlist
  | .array element size => by
    rw [json, canonical, HasTuple, String.append_left_inj]
    exact json_eq_canonical_iff element

end AbiType

end AbiTypes
