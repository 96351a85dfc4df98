import NeonTests.Lib.Dict
import NeonTests.Lib.Endian
import NeonTests.Lib.Fallible

/-!
# Python values and exceptions

The parts of the Python language the modelled scripts lean on: the exceptions
they can raise, the byte conversions of `int`, a few functions of `dict` and `str`. A Python function is a Lean
function into `Except PyError`, so that a raise is a value one can reason about.
-/

namespace Python

open Endian

/-- The exceptions a modelled function can end with. -/
inductive PyError
  | indexError
  | keyError (key : String)
  | overflowError
  | valueError
  | typeError
  | fileNotFoundError
  /-- the interpreter's own limit; also what a model without fuel left answers -/
  | recursionError
  /-- `json.JSONDecodeError` -/
  | jsonDecodeError
  /-- `pydantic.ValidationError` -/
  | validationError
  /-- `sqlalchemy.exc.SQLAlchemyError` -/
  | databaseError
  /-- `raise Exception(text)` -/
  | exception (text : String)
  | assertionError
  /-- `raise AssertionError(text)` -/
  | assertion (text : String)
  | attributeError
  | arithmeticError
  deriving DecidableEq, Repr

/-- `n.to_bytes(length, "big")`: negative and oversized numbers raise. -/
def toBytesBig (n : Int) (length : Nat) : Except PyError Bytes :=
  if 0 ≤ n ∧ n.toNat < 256 ^ length then .ok (beBytes length n.toNat)
  else .error .overflowError

/-- `n.to_bytes(length, "little")`. -/
def toBytesLittle (n : Int) (length : Nat) : Except PyError Bytes :=
  if 0 ≤ n ∧ n.toNat < 256 ^ length then .ok (leBytes length n.toNat)
  else .error .overflowError

theorem toBytesBig_natCast {n length : Nat} (h : n < 256 ^ length) :
    toBytesBig n length = .ok (beBytes length n) := by
  rw [toBytesBig, if_pos ⟨Int.natCast_nonneg n, by simpa using h⟩, Int.toNat_natCast]

theorem toBytesLittle_natCast {n length : Nat} (h : n < 256 ^ length) :
    toBytesLittle n length = .ok (leBytes length n) := by
  rw [toBytesLittle, if_pos ⟨Int.natCast_nonneg n, by simpa using h⟩, Int.toNat_natCast]

theorem toBytesLittle_eq_ok {n : Int} {length : Nat} {bs : Bytes} :
    toBytesLittle n length = .ok bs ↔
      (0 ≤ n ∧ n.toNat < 256 ^ length) ∧ leBytes length n.toNat = bs := by
  unfold toBytesLittle
  split
  · next h => simp only [Except.ok.injEq, h, true_and, and_self]
  · next h => simp only [reduceCtorEq, h, false_and]

theorem length_toBytesBig {n : Int} {length : Nat} {bs : Bytes}
    (h : toBytesBig n length = .ok bs) : bs.length = length := by
  unfold toBytesBig at h
  split at h
  · cases h
    exact length_beBytes _ _
  · cases h

/-- A single-byte conversion is that byte. -/
theorem toBytesBig_one {n : Nat} (h : n < 256) :
    toBytesBig n 1 = .ok [UInt8.ofNat n] := by
  rw [toBytesBig_natCast (by simpa using h)]
  simp [beBytes, leBytes, Nat.mod_eq_of_lt h]

/-- `d[key]` -/
def getItem {υ : Type} (d : Dict String υ) (key : String) : Except PyError υ :=
  match d.get? key with
  | some v => .ok v
  | none => .error (.keyError key)

/-- `c.isspace()`: the characters `str.strip` takes off. -/
def isSpace (c : Char) : Bool :=
  let n := c.toNat
  (9 ≤ n && n ≤ 13) || (28 ≤ n && n ≤ 32) || n == 0x85 || n == 0xa0 || n == 0x1680 ||
    (0x2000 ≤ n && n ≤ 0x200a) || n == 0x2028 || n == 0x2029 || n == 0x202f || n == 0x205f ||
    n == 0x3000

/-- `s.strip()` -/
def strip (s : String) : String :=
  String.ofList ((s.toList.dropWhile isSpace).reverse.dropWhile isSpace).reverse

/-- `cased` says that a letter stands before. -/
def asciiTitleChars : (cased : Bool) → List Char → List Char
  | _, [] => []
  | cased, c :: rest => (if cased then c.toLower else c.toUpper) :: asciiTitleChars c.isAlpha rest

/-- `str.title` of a text in ASCII. -/
def asciiTitle (s : String) : String := String.ofList (asciiTitleChars false s.toList)

/-- The bytes of `s.encode("utf8")`. -/
def utf8 (s : String) : Bytes := s.toUTF8.data.toList

/-- `bytes.decode()`: strict UTF-8. A `UnicodeDecodeError` is a `ValueError`. -/
def decode (b : Bytes) : Except PyError String :=
  match String.fromUTF8? ⟨b.toArray⟩ with
  | some s => .ok s
  | none => .error .valueError

def IsUtf8 (b : Bytes) : Prop := ∃ s, utf8 s = b

theorem decode_eq_ok {b : Bytes} {s : String} : decode b = .ok s ↔ utf8 s = b := by
  unfold decode String.fromUTF8? utf8
  by_cases hvalid : ByteArray.IsValidUTF8 ⟨b.toArray⟩
  · rw [dif_pos hvalid]
    constructor
    · rintro ⟨⟩
      simp [String.fromUTF8]
    · rintro rfl
      simp [String.fromUTF8]
  · rw [dif_neg hvalid]
    simp only [reduceCtorEq, false_iff]
    rintro rfl
    exact hvalid s.isValidUTF8

theorem isUtf8_iff {b : Bytes} : IsUtf8 b ↔ ∃ s, decode b = .ok s :=
  exists_congr fun _ => decode_eq_ok.symm

/-- `bytes.hex()` -/
def hex (bs : Bytes) : String :=
  String.ofList (bs.flatMap fun b => [Nat.digitChar (b.toNat / 16), Nat.digitChar (b.toNat % 16)])

theorem digitChar_inj {m n : Nat} (hm : m < 16) (hn : n < 16)
    (h : Nat.digitChar m = Nat.digitChar n) : m = n := by
  have hall : ∀ m < 16, ∀ n < 16, Nat.digitChar m = Nat.digitChar n → m = n := by decide
  exact hall m hm n hn h

/-- Different bytes have different digits. -/
theorem hex_inj {bs cs : Bytes} (h : hex bs = hex cs) : bs = cs := by
  rw [hex, hex, String.ofList_inj] at h
  induction bs generalizing cs with
  | nil =>
    cases cs with
    | nil => rfl
    | cons c cs => cases h
  | cons b bs ih =>
    cases cs with
    | nil => cases h
    | cons c cs =>
      simp only [List.flatMap_cons, List.cons_append, List.nil_append, List.cons.injEq] at h
      obtain ⟨hhigh, hlow, hrest⟩ := h
      have hb := b.toNat_lt
      have hc := c.toNat_lt
      have hdiv := digitChar_inj (by omega) (by omega) hhigh
      have hmod := digitChar_inj (by omega) (by omega) hlow
      have hbyte : b = c := UInt8.toNat_inj.mp (by omega)
      rw [hbyte, ih hrest]

/-- The value of a hexadecimal digit. -/
def hexDigit? (c : Char) : Option Nat :=
  if '0' ≤ c ∧ c ≤ '9' then some (c.toNat - 48)
  else if 'a' ≤ c ∧ c ≤ 'f' then some (c.toNat - 87)
  else if 'A' ≤ c ∧ c ≤ 'F' then some (c.toNat - 55)
  else none

/-- ASCII whitespace, which `bytes.fromhex` skips in front of a byte. -/
def isAsciiSpace (c : Char) : Bool := (9 ≤ c.toNat && c.toNat ≤ 13) || c.toNat == 32

def fromHexDigits : List Char → Option Bytes
  | [] => some []
  | [c] => if isAsciiSpace c then some [] else none
  | c :: d :: rest =>
    if isAsciiSpace c then fromHexDigits (d :: rest)
    else do
      let high ← hexDigit? c
      let low ← hexDigit? d
      let bytes ← fromHexDigits rest
      return UInt8.ofNat (16 * high + low) :: bytes

/-- `bytes.fromhex(s)` -/
def fromHex (s : String) : Except PyError Bytes :=
  match fromHexDigits s.toList with
  | some bytes => .ok bytes
  | none => .error .valueError

theorem hexDigit?_digitChar {n : Nat} (h : n < 16) :
    hexDigit? (Nat.digitChar n) = some n ∧ isAsciiSpace (Nat.digitChar n) = false := by
  have hall : ∀ n < 16, hexDigit? (Nat.digitChar n) = some n ∧
      isAsciiSpace (Nat.digitChar n) = false := by decide
  exact hall n h

/-- Bytes survive the trip through their digits. -/
theorem fromHex_hex (bs : Bytes) : fromHex (hex bs) = .ok bs := by
  suffices h : fromHexDigits (bs.flatMap fun b =>
      [Nat.digitChar (b.toNat / 16), Nat.digitChar (b.toNat % 16)]) = some bs by
    rw [fromHex, hex, String.toList_ofList, h]
  induction bs with
  | nil => rfl
  | cons b bs ih =>
    have hb := b.toNat_lt
    obtain ⟨hhigh, hspace⟩ := hexDigit?_digitChar (n := b.toNat / 16) (by omega)
    obtain ⟨hlow, -⟩ := hexDigit?_digitChar (n := b.toNat % 16) (by omega)
    have hbyte : UInt8.ofNat (16 * (b.toNat / 16) + b.toNat % 16) = b := by
      rw [Nat.div_add_mod, UInt8.ofNat_toNat]
    rw [List.flatMap_cons, List.cons_append, List.cons_append, List.nil_append, fromHexDigits,
      if_neg (by simp [hspace]), hhigh, hlow, ih]
    exact congrArg (fun c => some (c :: bs)) hbyte

end Python
