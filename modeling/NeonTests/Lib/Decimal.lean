import Mathlib.Data.List.DropRight
import NeonTests.Lib.Occurrences
import NeonTests.Lib.Python

/-!
# Decimal digits — the `\d` of a pattern, `isdigit` and `int`

The digits of a string are those of any script (`decimalZeros`). What `f"{n}"` writes are
digits, and `int` reads `n` back from them (`int_toString`); no digit is white space
(`isDecimal_space`), so a number ends where a blank stands.
-/

namespace Python

/-- The zeros of the scripts with decimal digits; the other nine follow each. -/
def decimalZeros : List Nat :=
  [0x30, 0x660, 0x6f0, 0x7c0, 0x966, 0x9e6, 0xa66, 0xae6, 0xb66, 0xbe6, 0xc66, 0xce6, 0xd66,
    0xde6, 0xe50, 0xed0, 0xf20, 0x1040, 0x1090, 0x17e0, 0x1810, 0x1946, 0x19d0, 0x1a80, 0x1a90,
    0x1b50, 0x1bb0, 0x1c40, 0x1c50, 0xa620, 0xa8d0, 0xa900, 0xa9d0, 0xa9f0, 0xaa50, 0xabf0,
    0xff10, 0x104a0, 0x10d30, 0x11066, 0x110f0, 0x11136, 0x111d0, 0x112f0, 0x11450, 0x114d0,
    0x11650, 0x116c0, 0x11730, 0x118e0, 0x11950, 0x11c50, 0x11d50, 0x11da0, 0x16a60, 0x16b50,
    0x1d7ce, 0x1d7d8, 0x1d7e2, 0x1d7ec, 0x1d7f6, 0x1e140, 0x1e2f0, 0x1e950, 0x1fbf0]

/-- The value of a decimal digit. -/
def decimal? (c : Char) : Option Nat :=
  (decimalZeros.find? fun z => decide (z ≤ c.toNat ∧ c.toNat < z + 10)).map fun z => c.toNat - z

/-- `\d` -/
def isDecimal (c : Char) : Bool := (decimal? c).isSome

/-- `s.isdigit()`, of what `\d*` has matched. -/
def isdigit (digits : List Char) : Bool := !digits.isEmpty && digits.all isDecimal

/-- `int(s)`, of a string of digits. -/
def int (digits : List Char) : Nat :=
  digits.foldl (fun n c => 10 * n + (decimal? c).getD 0) 0

-- ---------------------------------------------------------------------------
-- Numbers as they are written
-- ---------------------------------------------------------------------------

theorem decimal?_of_isDigit {c : Char} (h : c.isDigit = true) :
    decimal? c = some (c.toNat - '0'.toNat) := by
  have hrange := Char.isDigit_iff_toNat.mp h
  have hlow : 0x30 ≤ c.toNat ∧ c.toNat < 0x30 + 10 := by
    revert hrange
    simp only [show '0'.toNat = 0x30 from rfl, show '9'.toNat = 0x39 from rfl]
    omega
  have hhead : decimalZeros = 0x30 :: decimalZeros.tail := rfl
  rw [decimal?, hhead, List.find?_cons_of_pos]
  · rfl
  · exact decide_eq_true hlow

theorem isDigit_of_mem_toString {n : Nat} {c : Char} (h : c ∈ (toString n).toList) :
    c.isDigit = true := by
  rw [Nat.toString_eq_ofList_toDigits, String.toList_ofList] at h
  exact Nat.isDigit_of_mem_toDigits (by omega) (by omega) h

theorem isDecimal_of_mem_toString {n : Nat} {c : Char} (h : c ∈ (toString n).toList) :
    isDecimal c = true := by
  rw [isDecimal, decimal?_of_isDigit (isDigit_of_mem_toString h)]
  rfl

theorem toList_toString_ne_nil (n : Nat) : (toString n).toList ≠ [] := by
  rw [Nat.toString_eq_ofList_toDigits, String.toList_ofList]
  exact Nat.toDigits_ne_nil

theorem isdigit_toString (n : Nat) : isdigit (toString n).toList = true := by
  rw [isdigit, Bool.and_eq_true, Bool.not_eq_true', List.isEmpty_eq_false_iff, List.all_eq_true]
  exact ⟨toList_toString_ne_nil n, fun c => isDecimal_of_mem_toString⟩

/-- A written number is read back. -/
theorem int_toString (n : Nat) : int (toString n).toList = n := by
  have hfold (n' : Nat) (digits : List Char) (h : ∀ c ∈ digits, c.isDigit = true) :
      digits.foldl (fun n c => 10 * n + (decimal? c).getD 0) n' =
        Nat.ofDigitChars 10 digits n' := by
    induction digits generalizing n' with
    | nil => rfl
    | cons c digits ih =>
      rw [List.foldl_cons, ih _ fun d hd => h d (List.mem_cons_of_mem c hd),
        decimal?_of_isDigit (h c List.mem_cons_self), Nat.ofDigitChars_cons]
      rfl
  rw [int, hfold 0 _ fun c => isDigit_of_mem_toString, Nat.toString_eq_ofList_toDigits,
    String.toList_ofList, Nat.ofDigitChars_ten_toDigits]

theorem toString_injective : Function.Injective fun n : Nat => toString n := by
  intro m n h
  have := congrArg (fun s : String => int s.toList) h
  simpa only [int_toString] using this

/-- A number ends before a character that is no digit. -/
theorem takeWhile_toString {c : Char} (hc : isDecimal c = false) (n : Nat) (rest : List Char) :
    ((toString n).toList ++ c :: rest).takeWhile isDecimal = (toString n).toList := by
  rw [List.takeWhile_append_of_pos fun c => isDecimal_of_mem_toString,
    List.takeWhile_cons_of_neg (by rw [hc]; exact Bool.false_ne_true), List.append_nil]

theorem dropWhile_toString {c : Char} (hc : isDecimal c = false) (n : Nat) (rest : List Char) :
    ((toString n).toList ++ c :: rest).dropWhile isDecimal = c :: rest := by
  rw [List.dropWhile_append_of_pos fun c => isDecimal_of_mem_toString,
    List.dropWhile_cons_of_neg (by rw [hc]; exact Bool.false_ne_true)]

theorem getLast_toDigits (n : Nat) : (Nat.toDigits 10 n).getLast? = some (n % 10).digitChar := by
  rcases Nat.lt_or_ge n 10 with hlt | hge
  · rw [Nat.toDigits_of_lt_base hlt, Nat.mod_eq_of_lt hlt]
    rfl
  · rw [Nat.toDigits_of_base_le (by omega) hge]
    simp

/-- The last digit of a written number. -/
theorem getLast_toString (n : Nat) :
    (toString n).toList.getLast? = some (n % 10).digitChar := by
  rw [Nat.toString_eq_ofList_toDigits, String.toList_ofList, getLast_toDigits]

theorem decimal?_digitChar {d : Nat} (h : d < 10) : decimal? d.digitChar = some d := by
  have hall : ∀ d < 10, decimal? (Nat.digitChar d) = some d := by decide
  exact hall d h

theorem isDecimal_space : isDecimal ' ' = false := by decide

theorem isSpace_of_isDigit {c : Char} (h : c.isDigit = true) : isSpace c = false := by
  have hrange := Char.isDigit_iff_toNat.mp h
  simp only [show '0'.toNat = 0x30 from rfl, show '9'.toNat = 0x39 from rfl] at hrange
  simp only [isSpace, Bool.or_eq_false_iff, Bool.and_eq_false_iff, decide_eq_false_iff_not,
    beq_eq_false_iff_ne]
  omega

-- ---------------------------------------------------------------------------
-- Stripped strings
-- ---------------------------------------------------------------------------

theorem toList_strip (s : String) :
    (strip s).toList = (s.toList.dropWhile isSpace).rdropWhile isSpace := String.toList_ofList

theorem strip_strip (s : String) : strip (strip s) = strip s := by
  rw [← String.toList_inj, toList_strip, toList_strip]
  obtain ⟨d, hd⟩ : ∃ d, s.toList.dropWhile isSpace = d := ⟨_, rfl⟩
  have hhead := List.head?_dropWhile_not isSpace s.toList
  obtain ⟨behind, hbehind⟩ := List.rdropWhile_prefix isSpace (l := d)
  have hkeep : (d.rdropWhile isSpace).dropWhile isSpace = d.rdropWhile isSpace := by
    cases hr : d.rdropWhile isSpace with
    | nil => rfl
    | cons c r =>
      rw [hr] at hbehind
      rw [hd, ← hbehind] at hhead
      exact List.dropWhile_cons_of_neg (by simpa using hhead)
  rw [hd, hkeep, List.rdropWhile_idempotent]

/-- A stripped string does not end in white space. -/
theorem isSpace_getLast {s : String} (h : strip s = s) (hne : s.toList ≠ []) :
    isSpace (s.toList.getLast hne) = false := by
  have hlist := toList_strip s
  rw [h] at hlist
  have hself : s.toList.rdropWhile isSpace = s.toList := by
    have := List.rdropWhile_idempotent isSpace (s.toList.dropWhile isSpace)
    rwa [← hlist] at this
  simpa using List.rdropWhile_eq_self_iff.mp hself hne

end Python
