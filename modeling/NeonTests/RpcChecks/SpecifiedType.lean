import NeonTests.RpcChecks.LogField

/-!
# RPC checks — fields of a specified type

`assert_fields_are_specified_type` of `rpc_checks.py`, over any values and their classes.
The receipt checks use it for numbers, booleans and hashes.

* `assertFields_eq` — all the function does: it looks for a field that is missing;
* `checksWhatItSays_iff` — for which objects that is what it says it checks;
* `assertFields_json` — the receipt's check of `LogField` is this one at JSON values.
-/

namespace NeonTests.RpcChecks.SpecifiedType

open Fallible

/-! ## Classes -/

/-- The classes `τ` of the values `υ`: what `type` answers, and how a class is printed. -/
structure Classes (υ τ : Type) where
  type : υ → τ
  noneType : τ
  /-- `_type.__name__` -/
  name : τ → String
  /-- `str(t)` -/
  str : τ → String

/-- What `a or b` can be for a comparison `a` and a class `b`. -/
inductive Operand (τ : Type)
  | bool (b : Bool)
  | cls (c : τ)

/-- A class defines neither a truth value nor a length, so it counts as true. -/
def Operand.truth {τ : Type} : Operand τ → Bool
  | .bool b => b
  | .cls _ => true

/-- Python's `or`: the first operand if it counts as true, otherwise the second. -/
def Operand.or {τ : Type} (a b : Operand τ) : Operand τ := if a.truth then a else b

inductive AssertionError
  | missing (message : String)
  | wrongType (message : String)
  deriving DecidableEq, Repr

section

variable {υ τ : Type} [DecidableEq τ] (classes : Classes υ τ)

/-- The condition of the second assertion: `t is _type or NoneType`. -/
def condition (type t : τ) : Operand τ :=
  (Operand.bool (decide (t = type))).or (.cls classes.noneType)

def missingMessage (field : String) : String := s!"no expected field {field} in the object"

def wrongTypeMessage (field : String) (type t : τ) : String :=
  "field " ++ field ++ " is not " ++ classes.name type ++ ". Actual: " ++ classes.str t

/-- The body of the loop. -/
def assertField (type : τ) (obj : Dict String υ) (field : String) : Except AssertionError Unit :=
  match obj.get? field with
  | none => .error (.missing (missingMessage field))
  | some value =>
    guard ((condition classes type (classes.type value)).truth = true)
      (.wrongType (wrongTypeMessage classes field type (classes.type value)))

/-- `assert_fields_are_specified_type` -/
def assertFields (type : τ) (obj : Dict String υ) (expectedTypeFields : List String) :
    Except AssertionError Unit :=
  forM expectedTypeFields (assertField classes type obj)

/-! ## What it checks -/

/-- The value of a field that is there is `None`, or exactly of the type. -/
def HasType (type : τ) (obj : Dict String υ) (field : String) : Prop :=
  ∀ value, obj.get? field = some value →
    classes.type value = classes.noneType ∨ classes.type value = type

/-- It raises exactly if a listed field is missing, or has a value of another type. -/
def ChecksWhatItSays (type : τ) (obj : Dict String υ) (fields : List String) : Prop :=
  (∃ e, assertFields classes type obj fields = .error e) ↔
    ∃ field ∈ fields, obj.get? field = none ∨ ¬ HasType classes type obj field

variable {classes} {type : τ} {obj : Dict String υ} {field : String} {fields : List String}

/-- Whatever the classes are. -/
theorem condition_truth (type t : τ) : (condition classes type t).truth = true := by
  unfold condition Operand.or
  split
  · assumption
  · rfl

theorem assertField_eq :
    assertField classes type obj field =
      if obj.get? field = none then .error (.missing (missingMessage field)) else .ok () := by
  unfold assertField
  rcases obj.get? field with _ | value
  · rfl
  · exact guard_of (condition_truth type _) _

/-- **What it does.** It names the first field that is missing, and looks at no value. -/
theorem assertFields_eq (fields : List String) :
    assertFields classes type obj fields =
      match fields.find? fun field => (obj.get? field).isNone with
      | none => .ok ()
      | some field => .error (.missing (missingMessage field)) := by
  unfold assertFields
  induction fields with
  | nil => rfl
  | cons field fields ih =>
    rw [List.forM_cons, assertField_eq, List.find?_cons]
    rcases obj.get? field with _ | value
    · rfl
    · exact ih

theorem assertFields_raises_iff :
    (∃ e, assertFields classes type obj fields = .error e) ↔
      ∃ field ∈ fields, obj.get? field = none := by
  rw [assertFields_eq]
  rcases hfind : fields.find? fun field => (obj.get? field).isNone with _ | missing
  · have hall := List.find?_eq_none.mp hfind
    constructor
    · rintro ⟨e, he⟩
      cases he
    · rintro ⟨field, hmem, hnone⟩
      exact absurd (Option.isNone_iff_eq_none.mpr hnone) (hall field hmem)
  · have hnone : (obj.get? missing).isNone = true := by simpa using List.find?_some hfind
    refine ⟨fun _ => ⟨missing, List.mem_of_find?_eq_some hfind, ?_⟩, fun _ => ⟨_, rfl⟩⟩
    exact Option.isNone_iff_eq_none.mp hnone

theorem assertFields_eq_ok :
    assertFields classes type obj fields = .ok () ↔ ∀ field ∈ fields, obj.get? field ≠ none := by
  have hraises : (∃ e, assertFields classes type obj fields = .error e) ↔ _ :=
    assertFields_raises_iff
  rcases hrun : assertFields classes type obj fields with e | u
  · obtain ⟨field, hmem, hnone⟩ := hraises.mp ⟨e, hrun⟩
    constructor
    · intro h
      cases h
    · intro h
      exact absurd hnone (h field hmem)
  · refine ⟨fun _ field hmem hnone => ?_, fun _ => rfl⟩
    obtain ⟨e, he⟩ := hraises.mpr ⟨field, hmem, hnone⟩
    rw [hrun] at he
    cases he

/-- **When it checks what it says.** For every object, list of fields and type: if and only
if a listed field is missing, or every listed field is `None` or of the type. -/
theorem checksWhatItSays_iff (classes : Classes υ τ) (type : τ) (obj : Dict String υ)
    (fields : List String) :
    ChecksWhatItSays classes type obj fields ↔
      (∃ field ∈ fields, obj.get? field = none) ∨
        ∀ field ∈ fields, HasType classes type obj field := by
  unfold ChecksWhatItSays
  rw [assertFields_raises_iff]
  constructor
  · intro h
    by_cases hmissing : ∃ field ∈ fields, obj.get? field = none
    · exact .inl hmissing
    · refine .inr fun field hmem => ?_
      by_contra htype
      exact hmissing (h.mpr ⟨field, hmem, .inr htype⟩)
  · rintro (hmissing | htypes)
    · obtain ⟨field, hmem, hnone⟩ := hmissing
      exact ⟨fun _ => ⟨field, hmem, .inl hnone⟩, fun _ => ⟨field, hmem, hnone⟩⟩
    · constructor
      · rintro ⟨field, hmem, hnone⟩
        exact ⟨field, hmem, .inl hnone⟩
      · rintro ⟨field, hmem, hnone | htype⟩
        · exact ⟨field, hmem, hnone⟩
        · exact absurd (htypes field hmem) htype

end

/-! ## JSON values -/

inductive PyClass
  | noneType
  | bool
  | int
  | float
  | str
  | list
  | dict
  deriving DecidableEq, Repr

def PyClass.name : PyClass → String
  | .noneType => "NoneType"
  | .bool => "bool"
  | .int => "int"
  | .float => "float"
  | .str => "str"
  | .list => "list"
  | .dict => "dict"

/-- The class of what a JSON text is read as. -/
def classOf : Json → PyClass
  | .null => .noneType
  | .bool _ => .bool
  | .number literal => if isInt (.number literal) then .int else .float
  | .string _ => .str
  | .array _ => .list
  | .object _ => .dict

def jsonClasses : Classes Json PyClass where
  type := classOf
  noneType := .noneType
  name := PyClass.name
  str c := "<class '" ++ c.name ++ "'>"

/-- The receipts' check, whatever it takes for the type of a value, passes the same
objects. -/
theorem assertFields_json (type : PyClass) (check : Json → Bool) (obj : Dict String Json)
    (fields : List String) :
    assertFields jsonClasses type obj fields = .ok () ↔
      assertFieldsAreSpecifiedType check obj fields = .ok () := by
  rw [assertFieldsAreSpecifiedType_eq_ok, assertFields_eq_ok]

/-- A fee that is a string passes as a number. -/
theorem string_fee_passes :
    ¬ ChecksWhatItSays jsonClasses .int
      ⟨[("neonTransactionFee", .string "0x1388")], by simp⟩ ["neonTransactionFee"] := by
  intro h
  have hwrong : ¬ HasType jsonClasses .int
      ⟨[("neonTransactionFee", .string "0x1388")], by simp⟩ "neonTransactionFee" := by
    intro htype
    rcases htype (.string "0x1388") rfl with hnone | hint
    · cases hnone
    · cases hint
  obtain ⟨e, he⟩ := h.mpr ⟨"neonTransactionFee", by simp, .inr hwrong⟩
  cases he

end NeonTests.RpcChecks.SpecifiedType
