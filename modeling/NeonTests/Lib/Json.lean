import NeonTests.Lib.Dict
import NeonTests.Lib.Python

/-!
# JSON documents

The tree a text stands for. A document is written and read as a whole, so the
model keeps the tree in place of the text; an object is the list of its members,
in the order they are written.
-/

inductive Json
  | null
  | bool (b : Bool)
  /-- the literal as written -/
  | number (literal : String)
  | string (s : String)
  | array (elements : List Json)
  | object (members : List (String × Json))

namespace Json

open Python

/-- A `list[str]` field. -/
def ofStrings (xs : List String) : Json := .array (xs.map .string)

def asString : Json → Except PyError String
  | .string s => .ok s
  | _ => .error .validationError

def asStrings : Json → Except PyError (List String)
  | .array xs => xs.mapM asString
  | _ => .error .validationError

theorem asStrings_ofStrings (xs : List String) : asStrings (ofStrings xs) = .ok xs :=
  Fallible.mapM_map_eq_ok (f := asString) (g := .string) (fun _ => rfl) xs

section

variable {κ υ : Type} (name : κ → String) (write : υ → Json)

/-- A `dict` field: its keys by name, its values one by one. -/
def ofDict (d : Dict κ υ) : Json := .object (d.items.map fun x => (name x.1, write x.2))

variable (key? : String → Option κ) (read : Json → Except PyError υ)

def asItem (x : String × Json) : Except PyError (κ × υ) :=
  match key? x.1 with
  | none => .error .validationError
  | some k => do return (k, ← read x.2)

variable [DecidableEq κ]

/-- A name given twice counts once, with its last value. -/
def asDict : Json → Except PyError (Dict κ υ)
  | .object members => do
    let items ← (Dict.ofList members).items.mapM (asItem key? read)
    return Dict.ofList items
  | _ => .error .validationError

variable {name write key? read}

/-- **Round trip.** A dictionary is read back as it was, order included. -/
theorem asDict_ofDict (hkey : ∀ k, key? (name k) = some k) (hread : ∀ v, read (write v) = .ok v)
    (d : Dict κ υ) : asDict key? read (ofDict name write d) = .ok d := by
  have hinj : Function.Injective name := by
    intro k k' h
    have hk := hkey k
    rw [h, hkey k'] at hk
    exact (Option.some.inj hk).symm
  have hnodup : ((d.items.map fun x => (name x.1, write x.2)).map Prod.fst).Nodup := by
    have hnames := d.nodup.map hinj
    rw [List.map_map] at hnames ⊢
    exact hnames
  have hitem (x : κ × υ) : asItem key? read (name x.1, write x.2) = .ok x := by
    rw [asItem]
    simp only [hkey, hread]
    rfl
  rw [ofDict, asDict, Dict.ofList_of_nodup hnodup, Fallible.mapM_map_eq_ok hitem, Fallible.ok_bind,
    Dict.ofList_items]
  rfl

end

end Json
