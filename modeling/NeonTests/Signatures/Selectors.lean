import NeonTests.Signatures.Definitions

/-!
# Function signatures — when the selectors are right

A contract is given by its functions and their parameters' types, and `Contract.abi` is what the
compiler writes of it. `get_selectors` takes a parameter for a struct by a word in its
`internalType`, and writes every struct as a dynamic array of the components that are not called
like the parameter.

* `inputType_param` — what is written for one parameter;
* `getSelectors_correct_iff` — the condition on the parameters, exact for every hash.
-/

namespace NeonTests.Signatures

open AbiTypes Brackets Endian Fallible Python Text

-- ---------------------------------------------------------------------------
-- Contracts
-- ---------------------------------------------------------------------------

/-- What stands before the array suffixes of a parameter's type. -/
inductive Base
  /-- `internal` is the type as the source names it: an enum or a contract has a name of its
  own -/
  | plain (type : Word) (internal : String)
  /-- of the components, what is further down has no names that are read -/
  | struct (name : String) (components : List (String × AbiType))

structure Param where
  name : String
  base : Base
  /-- the array suffixes, the innermost first -/
  sizes : List (Option Nat)
  /-- whether the compiler writes internal types -/
  internalTypes : Bool

inductive ContractItem
  | function (name : String) (params : List Param)
  /-- a constructor, an event, an error -/
  | other (entry : AbiEntry) (h : entry.type ≠ "function")

abbrev Contract := List ContractItem

def Base.abiType : Base → AbiType
  | .plain type _ => .elementary type
  | .struct _ components => .tuple (components.map Prod.snd)

def Param.abiType (p : Param) : AbiType := p.base.abiType.arrays p.sizes

def Base.internalType : Base → String
  | .plain _ internal => internal
  | .struct name _ => "struct " ++ name

def Param.internalType (p : Param) : String := p.base.internalType ++ AbiType.suffixes p.sizes

def Base.components : Base → Option (List Component)
  | .plain _ _ => none
  | .struct _ components => some (components.map fun c => ⟨c.1, c.2.json⟩)

/-- A parameter in the ABI. -/
def Param.input (p : Param) : Input where
  name := p.name
  type := p.abiType.json
  internalType := if p.internalTypes then some p.internalType else none
  components := p.base.components

def ContractItem.entry : ContractItem → AbiEntry
  | .function name params => ⟨"function", some name, some (params.map Param.input)⟩
  | .other entry _ => entry

def Contract.abi (contract : Contract) : List AbiEntry := contract.map ContractItem.entry

def Contract.functions (contract : Contract) : List (String × List Param) :=
  contract.filterMap fun
    | .function name params => some (name, params)
    | .other _ _ => none

/-- A function's canonical signature. -/
def signatureOf (function : String × List Param) : String :=
  AbiType.signature function.1 (function.2.map Param.abiType)

/-- The selectors of all functions, in order. -/
def SelectorsCorrect (keccak : String → Digest) (contract : Contract) : Prop :=
  getSelectors keccak contract.abi =
    .ok (contract.functions.map fun function => selector keccak (signatureOf function))

/-- A parameter that is written as it should be: its internal type is there, and
- it is no struct, and not taken for one;
- or it is a dynamic array of structs, in which there is no tuple and no component called like
  the parameter. -/
def Param.Written (p : Param) : Prop :=
  p.internalTypes = true ∧
    match p.base with
    | .plain _ _ => contains p.internalType "struct" = false
    | .struct _ components =>
      p.sizes = [none] ∧ ∀ c ∈ components, c.1 ≠ p.name ∧ ¬ c.2.HasTuple

-- ---------------------------------------------------------------------------
-- One parameter
-- ---------------------------------------------------------------------------

theorem contains_struct (name rest : String) : contains ("struct " ++ name ++ rest) "struct" = true := by
  rw [contains, decide_eq_true_iff]
  refine ⟨[], ' ' :: (name ++ rest).toList, ?_⟩
  simp only [String.toList_append]
  rfl

/-- What is written for a struct. -/
def writtenStruct (name : String) (components : List (String × AbiType)) : String :=
  "(" ++ join ',' ((components.filter fun c => c.1 ≠ name).map fun c => c.2.json) ++ ")[]"

/-- A plain parameter is written with its type, unless it is taken for a struct. -/
theorem inputType_plain {p : Param} {type : Word} {internal : String}
    (hbase : p.base = .plain type internal) :
    inputType p.input =
      if p.internalTypes = true then
        if contains p.internalType "struct" then .error (.keyError "components")
        else .ok p.abiType.canonical
      else .error (.keyError "internalType") := by
  have hjson : p.abiType.json = p.abiType.canonical := by
    rw [Param.abiType, hbase, AbiType.json_arrays, AbiType.canonical_arrays]
    rfl
  rw [inputType, Param.input, hbase]
  dsimp only
  split
  · rw [getKey, ok_bind, ← hjson]
    by_cases hstruct : contains p.internalType "struct" = true
    · rw [if_pos hstruct, if_pos hstruct]
      rfl
    · rw [if_neg hstruct, if_neg hstruct]
      rfl
  · rfl

theorem inputType_struct {p : Param} {name : String} {components : List (String × AbiType)}
    (hbase : p.base = .struct name components) :
    inputType p.input =
      if p.internalTypes = true then .ok (writtenStruct p.name components)
      else .error (.keyError "internalType") := by
  have hstruct : contains p.internalType "struct" = true := by
    rw [Param.internalType, hbase]
    exact contains_struct name _
  rw [inputType, Param.input, hbase]
  dsimp only
  split
  · rw [getKey, ok_bind, if_pos hstruct]
    simp only [Base.components, getKey, ok_bind, List.filter_map, List.map_map, writtenStruct]
    rfl
  · rfl

/-- Two tuples with suffixes, cut at the last closing bracket. -/
theorem brackets_inj {a b : String} {sizes sizes' : List (Option Nat)}
    (h : "(" ++ a ++ ")" ++ AbiType.suffixes sizes = "(" ++ b ++ ")" ++ AbiType.suffixes sizes') :
    a = b ∧ AbiType.suffixes sizes = AbiType.suffixes sizes' := by
  have hlist := congrArg (fun s => s.toList.reverse) h
  simp only [String.toList_append, List.reverse_append] at hlist
  rw [show ")".toList.reverse = [')'] from rfl, List.singleton_append, List.singleton_append]
    at hlist
  obtain ⟨hsuffixes, hinner⟩ := Occurrences.cut_inj
    (by rw [List.mem_reverse]; exact AbiType.close_notMem_suffixes sizes)
    (by rw [List.mem_reverse]; exact AbiType.close_notMem_suffixes sizes') hlist
  refine ⟨String.toList_inj.mp ?_, String.toList_inj.mp (List.reverse_injective hsuffixes)⟩
  exact List.reverse_injective (List.append_cancel_right hinner)

/-- The components are written right if none is left out and none has a tuple. -/
theorem componentTypes_eq_iff {name : String} {components : List (String × AbiType)} :
    ((components.filter fun c => c.1 ≠ name).map fun c => c.2.json) =
        (components.map Prod.snd).map AbiType.canonical ↔
      ∀ c ∈ components, c.1 ≠ name ∧ ¬ c.2.HasTuple := by
  constructor
  · intro h
    have hlength := congrArg List.length h
    rw [List.length_map, List.length_map, List.length_map] at hlength
    have hall := List.length_filter_eq_length_iff.mp hlength
    rw [List.filter_eq_self.mpr hall, List.map_map] at h
    intro c hc
    refine ⟨of_decide_eq_true (hall c hc), (AbiType.json_eq_canonical_iff c.2).mp ?_⟩
    exact List.map_inj_left.mp h c hc
  · intro h
    rw [List.filter_eq_self.mpr fun c hc => decide_eq_true (h c hc).1, List.map_map]
    exact List.map_congr_left fun c hc => (AbiType.json_eq_canonical_iff c.2).mpr (h c hc).2

/-- A struct is written right under these conditions. -/
theorem writtenStruct_eq_canonical_iff {p : Param} {name : String}
    {components : List (String × AbiType)} (hbase : p.base = .struct name components) :
    writtenStruct p.name components = p.abiType.canonical ↔
      p.sizes = [none] ∧ ∀ c ∈ components, c.1 ≠ p.name ∧ ¬ c.2.HasTuple := by
  have hdynamic : ")[]" = ")" ++ AbiType.suffixes [none] := rfl
  rw [writtenStruct, Param.abiType, hbase, AbiType.canonical_arrays, Base.abiType,
    AbiType.canonical, AbiType.canonicals_eq_map, ← componentTypes_eq_iff,
    ← AbiType.suffixes_eq_dynamic_iff, hdynamic, ← String.append_assoc]
  constructor
  · intro h
    obtain ⟨hjoin, hsuffixes⟩ := brackets_inj h
    refine ⟨hsuffixes.symm, join_injective ?_ ?_ hjoin⟩
    · intro x hx
      obtain ⟨c, _, rfl⟩ := List.mem_map.mp hx
      exact AbiType.isItem_json c.2
    · intro x hx
      obtain ⟨t, _, rfl⟩ := List.mem_map.mp hx
      exact AbiType.isItem_canonical t
  · rintro ⟨hsuffixes, htypes⟩
    rw [hsuffixes, htypes]
    rfl

/-- **One parameter.** -/
theorem inputType_eq_canonical_iff (p : Param) :
    inputType p.input = .ok p.abiType.canonical ↔ p.Written := by
  unfold Param.Written
  cases hbase : p.base with
  | plain type internal =>
    rw [inputType_plain hbase]
    split
    · next hthere =>
      split
      · next hstruct => simp [hthere, hstruct]
      · next hstruct => simp [hthere, hstruct]
    · next hthere => simp [hthere]
  | struct name components =>
    rw [inputType_struct hbase]
    split
    · next hthere =>
      rw [Except.ok.injEq, writtenStruct_eq_canonical_iff hbase]
      simp [hthere]
    · next hthere => simp [hthere]

/-- Whatever is written for a parameter is an item of the list. -/
theorem isItem_of_inputType {p : Param} {text : String} (h : inputType p.input = .ok text) :
    IsItem text := by
  cases hbase : p.base with
  | plain type internal =>
    rw [inputType_plain hbase] at h
    split at h
    · split at h
      · cases h
      · cases h
        exact AbiType.isItem_canonical _
    · cases h
  | struct name components =>
    rw [inputType_struct hbase] at h
    split at h
    · cases h
      rw [writtenStruct, IsItem]
      refine ⟨fun hempty => ?_, ?_⟩
      · have hlist := congrArg String.toList hempty
        rw [String.toList_append, String.toList_append] at hlist
        cases hlist
      · have hdynamic : ")[]" = ")" ++ suffix none := rfl
        rw [hdynamic, ← String.append_assoc, String.toList_append, String.toList_append,
          String.toList_append, toList_join]
        refine passes_append (passes_brackets (passes_intercalate fun x hx => ?_))
          (AbiType.passes_suffix 0 none)
        obtain ⟨s, hs, rfl⟩ := List.mem_map.mp hx
        obtain ⟨c, _, rfl⟩ := List.mem_map.mp hs
        exact AbiType.passes_json 1 c.2
    · cases h

-- ---------------------------------------------------------------------------
-- One function
-- ---------------------------------------------------------------------------

/-- The loop writes a comma before each. -/
theorem inputTypes_eq (types : String) (inputs : List Input) :
    inputTypes types inputs =
      (inputs.mapM inputType).map fun texts => String.ofList (types.toList ++ behind texts) := by
  induction inputs generalizing types with
  | nil =>
    show Except.ok types = Except.ok (String.ofList (types.toList ++ []))
    rw [List.append_nil, String.ofList_toList]
  | cons input inputs ih =>
    rw [inputTypes, List.mapM_cons]
    cases inputType input with
    | error e => rfl
    | ok text =>
      rw [ok_bind, ok_bind, ih]
      cases inputs.mapM inputType with
      | error e => rfl
      | ok texts =>
        show Except.ok (String.ofList ((types ++ "," ++ text).toList ++ behind texts)) =
          Except.ok (String.ofList (types.toList ++ behind (text :: texts)))
        rw [String.toList_append, String.toList_append, List.append_assoc, List.append_assoc]
        rfl

theorem dropFirst_behind (texts : List String) :
    dropFirst (String.ofList (behind texts)) = join ',' texts := by
  rw [dropFirst, String.toList_ofList, ← String.toList_inj, String.toList_ofList]
  cases texts with
  | nil => rfl
  | cons text texts =>
    rw [toList_join_cons]
    rfl

/-- A function's selector, from what is written for its parameters. -/
theorem functionSelector_eq (keccak : String → Digest) (name : String) (params : List Param) :
    functionSelector keccak ⟨"function", some name, some (params.map Param.input)⟩ =
      (params.mapM fun p => inputType p.input).map fun texts =>
        selector keccak (name ++ "(" ++ join ',' texts ++ ")") := by
  have hmap : (params.map Param.input).mapM inputType = params.mapM fun p => inputType p.input :=
    List.mapM_map ..
  rw [functionSelector, getKey, ok_bind, inputTypes_eq, hmap]
  cases params.mapM fun p => inputType p.input with
  | error e => rfl
  | ok texts =>
    show Except.ok (selector keccak (name ++ "(" ++ dropFirst (String.ofList (behind texts)) ++
      ")")) = Except.ok (selector keccak (name ++ "(" ++ join ',' texts ++ ")"))
    rw [dropFirst_behind]

/-- Texts that every hash takes to the same selector are the same. -/
theorem eq_of_selector {s t : String} (h : ∀ keccak, selector keccak s = selector keccak t) :
    s = t := by
  by_contra hne
  have hcase := h fun text => if text = s then .replicate 32 0 else .replicate 32 1
  rw [selector, selector, if_pos rfl, if_neg (Ne.symm hne)] at hcase
  revert hcase
  decide

/-- **One function.** -/
theorem functionSelector_correct_iff (name : String) (params : List Param) :
    (∀ keccak, functionSelector keccak ⟨"function", some name, some (params.map Param.input)⟩ =
        .ok (selector keccak (signatureOf (name, params)))) ↔
      ∀ p ∈ params, p.Written := by
  have hwritten : (∀ p ∈ params, p.Written) ↔
      (params.mapM fun p => inputType p.input) = .ok (params.map fun p => p.abiType.canonical) := by
    rw [mapM_eq_ok_map_iff]
    exact forall₂_congr fun p _ => (inputType_eq_canonical_iff p).symm
  have hcanonical : (params.map Param.abiType).map AbiType.canonical =
      params.map fun p => p.abiType.canonical := List.map_map
  simp only [functionSelector_eq, signatureOf, AbiType.signature, hcanonical]
  rw [hwritten]
  constructor
  · intro h
    cases hparams : params.mapM fun p => inputType p.input with
    | error e =>
      rw [hparams] at h
      cases h fun _ => .replicate 32 0
    | ok texts =>
      rw [hparams] at h
      have hsame := eq_of_selector fun keccak => Except.ok.inj (h keccak)
      rw [String.append_left_inj, String.append_right_inj] at hsame
      rw [join_injective ?_ ?_ hsame]
      · intro text htext
        obtain ⟨p, _, hp⟩ := exists_related_right (forall₂_of_mapM hparams) htext
        exact isItem_of_inputType hp
      · intro text htext
        obtain ⟨p, _, rfl⟩ := List.mem_map.mp htext
        exact AbiType.isItem_canonical _
  · intro h keccak
    rw [h]
    rfl

-- ---------------------------------------------------------------------------
-- A contract
-- ---------------------------------------------------------------------------

theorem functions_cons_function (name : String) (params : List Param) (contract : Contract) :
    Contract.functions (.function name params :: contract) =
      (name, params) :: contract.functions := rfl

theorem functions_cons_other (entry : AbiEntry) (h : entry.type ≠ "function")
    (contract : Contract) :
    Contract.functions (.other entry h :: contract) = contract.functions := rfl

/-- Other entries are passed over. -/
theorem getSelectors_abi (keccak : String → Digest) (contract : Contract) :
    getSelectors keccak contract.abi = contract.functions.mapM fun function =>
      functionSelector keccak ⟨"function", some function.1, some (function.2.map Param.input)⟩ := by
  rw [getSelectors, Contract.abi]
  induction contract with
  | nil => rfl
  | cons item contract ih =>
    cases item with
    | function name params =>
      rw [List.map_cons, List.filter_cons_of_pos (by rfl), List.mapM_cons, ih,
        functions_cons_function, List.mapM_cons]
      rfl
    | other entry h =>
      rw [List.map_cons, List.filter_cons_of_neg (by exact fun hdec => h (of_decide_eq_true hdec)),
        ih, functions_cons_other]

/-- **Exactly when the selectors are right**: for every hash, if and only if every parameter of
every function is one that is written as it should be. -/
theorem getSelectors_correct_iff (contract : Contract) :
    (∀ keccak, SelectorsCorrect keccak contract) ↔
      ∀ function ∈ contract.functions, ∀ p ∈ function.2, p.Written := by
  simp only [SelectorsCorrect, getSelectors_abi, mapM_eq_ok_map_iff]
  constructor
  · intro h function hfunction
    exact (functionSelector_correct_iff function.1 function.2).mp
      fun keccak => h keccak function hfunction
  · intro h keccak function hfunction
    exact (functionSelector_correct_iff function.1 function.2).mpr (h function hfunction) keccak

-- ---------------------------------------------------------------------------
-- A struct
-- ---------------------------------------------------------------------------

def uint256 : Word := ⟨"uint256", by decide, by simp [special]⟩

def address : Word := ⟨"address", by decide, by simp [special]⟩

/-- `function setInfo(Info info)` with `struct Info { uint256 id; address owner; }`. -/
def infoContract : Contract :=
  [.function "setInfo" [⟨"info", .struct "Info" [("id", .elementary uint256),
    ("owner", .elementary address)], [], true⟩]]

/-- A hash that knows one text. -/
def knows (text : String) (s : String) : Digest :=
  if s = text then .replicate 32 0 else .replicate 32 1

/-- The struct is hashed as a dynamic array of structs. -/
theorem getSelectors_info :
    infoContract.functions.map signatureOf = ["setInfo((uint256,address))"] ∧
    getSelectors (knows "setInfo((uint256,address)[])") infoContract.abi = .ok [[0, 0, 0, 0]] ∧
    ¬ SelectorsCorrect (knows "setInfo((uint256,address))") infoContract := by
  refine ⟨by decide, by decide, ?_⟩
  unfold SelectorsCorrect
  decide

end NeonTests.Signatures
