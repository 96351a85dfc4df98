import NeonTests.Signatures.Definitions

/-!
# Function signatures — when the arguments are encoded under the right types

`decode_function_signature` takes a signature apart at the first brackets and at every comma. That
gives the parameters' types if there are some, and no tuple among them
(`argumentTypes_eq_iff`); only then is the call data right (`decodeFunctionSignature_correct_iff`).
-/

namespace NeonTests.Signatures

open AbiTypes Endian Fallible Python Text

-- ---------------------------------------------------------------------------
-- The types
-- ---------------------------------------------------------------------------

theorem getIndex_mem {xs : List String} {i : Nat} {x : String} (h : getIndex xs i = .ok x) :
    x ∈ xs := by
  unfold getIndex at h
  split at h
  · next hget =>
    cases h
    exact List.mem_of_getElem? hget
  · cases h

/-- No type that is read has an opening bracket. -/
theorem open_notMem_argumentTypes {text : String} {types : List String}
    (h : argumentTypes text = .ok types) : ∀ type ∈ types, '(' ∉ type.toList := by
  obtain ⟨inner, hinner, h⟩ := bind_eq_ok.mp h
  obtain ⟨inner', hinner', h⟩ := bind_eq_ok.mp h
  obtain rfl := pure_eq_ok.mp h
  intro type htype hopen
  exact notMem_of_mem_split (getIndex_mem hinner)
    (mem_of_mem_split (getIndex_mem hinner') (mem_of_mem_split htype hopen))

theorem notMem_join {c : Char} (hc : c ≠ ',') {xs : List String} (h : ∀ x ∈ xs, c ∉ x.toList) :
    c ∉ (join ',' xs).toList := by
  induction xs with
  | nil => exact List.not_mem_nil
  | cons x xs ih =>
    rw [Brackets.toList_join_cons, List.mem_append, not_or]
    refine ⟨h x List.mem_cons_self, fun hbehind => ?_⟩
    obtain ⟨y, hy, hcy⟩ := List.mem_flatMap.mp hbehind
    rcases List.mem_cons.mp hcy with rfl | hcy
    · exact hc rfl
    · exact h y (List.mem_cons_of_mem x hy) hcy

/-- Without tuples, what is between the brackets is split at its commas. -/
theorem argumentTypes_flat {name : Word} {ts : List AbiType} (h : ∀ t ∈ ts, ¬ t.HasTuple) :
    argumentTypes (AbiType.signature name.text ts) =
      .ok (split (join ',' (ts.map AbiType.canonical)) ',') := by
  obtain ⟨inner, hinner⟩ : ∃ inner, join ',' (ts.map AbiType.canonical) = inner := ⟨_, rfl⟩
  have hname : '(' ∉ name.text.toList := fun hc => name.plain _ hc (by decide)
  have hopen : '(' ∉ inner.toList := by
    rw [← hinner]
    refine notMem_join (by decide) fun x hx => ?_
    obtain ⟨t, ht, rfl⟩ := List.mem_map.mp hx
    exact fun hc => h t ht ((AbiType.open_mem_canonical_iff t).mp hc)
  have hclose : ')' ∉ inner.toList := by
    rw [← hinner]
    refine notMem_join (by decide) fun x hx => ?_
    obtain ⟨t, ht, rfl⟩ := List.mem_map.mp hx
    exact AbiType.notMem_canonical (.inr rfl) t (h t ht)
  have hfirst : split (name.text ++ "(" ++ inner ++ ")") '(' = [name.text, inner ++ ")"] := by
    rw [show "(" = String.singleton '(' from rfl, String.append_assoc, split_append_cons hname,
      split_of_notMem]
    rw [String.toList_append, List.mem_append, not_or]
    exact ⟨hopen, by decide⟩
  have hsecond : split (inner ++ ")") ')' = [inner, ""] := by
    have := split_append_cons (t := "") hclose
    rwa [String.append_empty, split_empty] at this
  rw [AbiType.signature, hinner, argumentTypes, hfirst, getIndex]
  dsimp only [List.getElem?_cons_succ, List.getElem?_cons_zero]
  rw [ok_bind, hsecond, getIndex]
  rfl

/-- **The types are right exactly without tuples**, where there are parameters at all. -/
theorem argumentTypes_eq_iff (name : Word) (ts : List AbiType) :
    argumentTypes (AbiType.signature name.text ts) = .ok (ts.map AbiType.canonical) ↔
      ts ≠ [] ∧ ∀ t ∈ ts, ¬ t.HasTuple := by
  constructor
  · intro h
    have hflat : ∀ t ∈ ts, ¬ t.HasTuple := fun t ht htuple =>
      open_notMem_argumentTypes h _ (List.mem_map.mpr ⟨t, ht, rfl⟩)
        ((AbiType.open_mem_canonical_iff t).mpr htuple)
    refine ⟨?_, hflat⟩
    rintro rfl
    rw [argumentTypes_flat hflat] at h
    cases h
  · rintro ⟨hne, hflat⟩
    rw [argumentTypes_flat hflat, split_join]
    · intro x hx
      obtain ⟨t, ht, rfl⟩ := List.mem_map.mp hx
      exact AbiType.notMem_canonical (.inl rfl) t (hflat t ht)
    · simpa using hne

-- ---------------------------------------------------------------------------
-- The call data
-- ---------------------------------------------------------------------------

section

variable {V : Type}

/-- The selector, followed by the arguments' encoding under the signature's types. -/
def CallDataCorrect (keccak : String → Digest) (encode : List String → List V → Except PyError Bytes)
    (name : Word) (ts : List AbiType) (args : List V) : Prop :=
  decodeFunctionSignature keccak encode (AbiType.signature name.text ts) (some args) =
    (encode (ts.map AbiType.canonical) args).map fun data =>
      "0x" ++ hex (selector keccak (AbiType.signature name.text ts) ++ data)

theorem decodeFunctionSignature_of_types (keccak : String → Digest)
    (encode : List String → List V → Except PyError Bytes) {text : String} {types : List String}
    (h : argumentTypes text = .ok types) (args : List V) :
    decodeFunctionSignature keccak encode text (some args) =
      (encode types args).map fun data => "0x" ++ hex (selector keccak text ++ data) := by
  rw [decodeFunctionSignature, h, ok_bind]
  cases encode types args <;> rfl

/-- **Exactly when the call data are right**: for every hash and every encoder, if and only if
there are parameters and no tuple among them. -/
theorem decodeFunctionSignature_correct_iff (name : Word) (ts : List AbiType) (args : List V) :
    (∀ keccak encode, CallDataCorrect keccak encode name ts args) ↔
      ts ≠ [] ∧ ∀ t ∈ ts, ¬ t.HasTuple := by
  rw [← argumentTypes_eq_iff name]
  constructor
  · intro h
    -- an encoder that knows the types
    obtain ⟨encode, hencode⟩ : ∃ encode : List String → List V → Except PyError Bytes,
        ∀ types args, encode types args =
          .ok [if types = ts.map AbiType.canonical then 0 else 1] := ⟨_, fun _ _ => rfl⟩
    have hcase := h (fun _ => .replicate 32 0) encode
    unfold CallDataCorrect at hcase
    cases htypes : argumentTypes (AbiType.signature name.text ts) with
    | error e =>
      rw [decodeFunctionSignature, htypes, hencode] at hcase
      cases hcase
    | ok types =>
      rw [decodeFunctionSignature_of_types _ _ htypes, hencode, hencode, if_pos rfl] at hcase
      have htext := hex_inj ((String.append_right_inj "0x").mp (Except.ok.inj hcase))
      have hbyte := List.append_cancel_left htext
      by_cases hsame : types = ts.map AbiType.canonical
      · rw [hsame]
      · rw [if_neg hsame] at hbyte
        cases hbyte
  · intro h keccak encode
    exact decodeFunctionSignature_of_types keccak encode h args

end

-- ---------------------------------------------------------------------------
-- No parameters, and a tuple
-- ---------------------------------------------------------------------------

/-- An encoder of small numbers and tuples of them: as `eth_abi` does, it first compares how many
types and arguments there are. -/
def countingEncode (types : List String) (args : List (List Nat)) : Except PyError Bytes :=
  if types.length = args.length then .ok (args.flatten.map UInt8.ofNat) else .error .valueError

def total : Word := ⟨"total", by decide, by simp [special]⟩

def uint8 : Word := ⟨"uint8", by decide, by simp [special]⟩

/-- One empty type is read of `total()`, and of a pair there is not even its first type. -/
theorem decodeFunctionSignature_total :
    argumentTypes "total()" = .ok [""] ∧
    argumentTypes "total((uint8,uint8),uint8)" = .ok [""] ∧
    decodeFunctionSignature (fun _ => .replicate 32 0) countingEncode "total()" (some []) =
      .error .valueError ∧
    ¬ CallDataCorrect (fun _ => .replicate 32 0) countingEncode total [] [] ∧
    ¬ CallDataCorrect (fun _ => .replicate 32 0) countingEncode total
      [.tuple [.elementary uint8, .elementary uint8], .elementary uint8] [[3, 4], [5]] := by
  refine ⟨by decide, by decide, by decide, ?_, ?_⟩
  · unfold CallDataCorrect
    decide
  · unfold CallDataCorrect
    decide

end NeonTests.Signatures
