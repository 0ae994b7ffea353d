import Rc2Compute.Support.BigEndian
import Rc2Compute.Support.CString
import Rc2Compute.Support.Double
import Mathlib.Data.List.DropRight

/-!
# JSON documents and their text

A value of the json library, with byte strings as `std::string` has them, and
`dump`, which prints it without white space.  Objects are maps ordered by
their keys.
-/

namespace Rc2Compute.Format

/-- The byte of an ASCII character. -/
def byte (c : Char) : UInt8 := c.toUInt8

def ascii (text : String) : Bytes := text.toList.map byte

/-- A `basic_json`; the discarded value, which only a callback of the parser
makes, is left out. -/
inductive BasicJson where
  | null
  | boolean (b : Bool)
  | number_integer (n : ℤ)
  | number_float (x : Double)
  | string (s : Bytes)
  | array (elems : List BasicJson)
  | object (fields : List (Bytes × BasicJson))

/-! ## Strings -/

/-- How much longer a character gets. -/
def extraOf (c : UInt8) : ℕ :=
  if c = byte '"' ∨ c = byte '\\' ∨ c = 0x08 ∨ c = 0x0c ∨ c = 0x0a ∨
      c = 0x0d ∨ c = 0x09 then 1
  else if c ≤ 0x1f then 5
  else 0

def extra_space (s : Bytes) : ℕ :=
  (s.map extraOf).sum

/-- A number below 16 as a hexadecimal digit. -/
def hexify (v : UInt8) : UInt8 :=
  if v < 10 then byte '0' + v else byte 'a' + v - 10

/-- The body of the loop of `escape_string`.  A `char` from 0x80 on is
negative and not a control character. -/
def escapeByte (c : UInt8) : Bytes :=
  if c = byte '"' then [byte '\\', byte '"']
  else if c = byte '\\' then [byte '\\', byte '\\']
  else if c = 0x08 then [byte '\\', byte 'b']
  else if c = 0x0c then [byte '\\', byte 'f']
  else if c = 0x0a then [byte '\\', byte 'n']
  else if c = 0x0d then [byte '\\', byte 'r']
  else if c = 0x09 then [byte '\\', byte 't']
  else if c ≤ 0x1f then
    [byte '\\', byte 'u', byte '0', byte '0', hexify (c >>> 4),
      hexify (c &&& 0x0f)]
  else [c]

def escape_string (s : Bytes) : Bytes :=
  if extra_space s = 0 then s else s.flatMap escapeByte

/-! ## Numbers -/

/-- A natural number as stream insertion prints it. -/
def decimalText (n : ℕ) : Bytes :=
  (decimal n).map byte

def signText (negative : Bool) : Bytes :=
  if negative then [byte '-'] else []

def integerText (n : ℤ) : Bytes :=
  signText (n < 0) ++ decimalText n.natAbs

/-- The decimal exponent of a value rounded to 15 digits, and the digits as a
number. -/
def significant (q : ℚ≥0) : ℤ × ℕ :=
  let x := Int.log 10 q
  let digits := roundEven (q / 10 ^ (x - 14))
  if digits = 10 ^ 15 then (x + 1, 10 ^ 14) else (x, digits)

/-- A value rounded to 15 significant digits. -/
def toSignificant (q : ℚ≥0) : ℚ≥0 :=
  (significant q).2 * 10 ^ ((significant q).1 - 14)

/-- The digits behind the decimal point, without zeros at their end; without
digits there is no point either. -/
def fractionText (digits : Bytes) : Bytes :=
  match digits.rdropWhile (· = byte '0') with
  | [] => []
  | kept => byte '.' :: kept

/-- An exponent has at least two digits. -/
def exponentText (x : ℤ) : Bytes :=
  (if x < 0 then byte '-' else byte '+') ::
    (if x.natAbs < 10 then [byte '0'] else []) ++ decimalText x.natAbs

/-- The format `%.15g`. -/
def generalText (q : ℚ≥0) : Bytes :=
  let x := (significant q).1
  let digits := decimalText (significant q).2
  if x < -4 ∨ 15 ≤ x then
    digits.take 1 ++ fractionText (digits.drop 1) ++
      byte 'e' :: exponentText x
  else if 0 ≤ x then
    digits.take (x.toNat + 1) ++ fractionText (digits.drop (x.toNat + 1))
  else
    byte '0' ::
      fractionText (List.replicate (-x - 1).toNat (byte '0') ++ digits)

/-- A whole number is printed with one digit behind the point, any other with
15 digits. -/
def floatText : Double → Bytes
  | .finite negative q =>
      signText negative ++
        if q.den = 1 then decimalText q.num ++ ascii ".0" else generalText q
  | .infinite negative => signText negative ++ ascii "inf"
  | .nan => ascii "nan"

/-! ## Documents -/

mutual

/-- `dump()`. -/
def dump : BasicJson → Bytes
  | .null => ascii "null"
  | .boolean b => if b then ascii "true" else ascii "false"
  | .number_integer n => integerText n
  | .number_float x => floatText x
  | .string s => byte '"' :: (escape_string s ++ [byte '"'])
  | .array [] => ascii "[]"
  | .array (elem :: elems) =>
      byte '[' :: (dump elem ++ dumpElements elems ++ [byte ']'])
  | .object [] => [byte '{', byte '}']
  | .object ((key, value) :: fields) =>
      byte '{' :: (byte '"' :: (escape_string key ++ ascii "\":") ++
        dump value ++ dumpFields fields ++ [byte '}'])

/-- The elements behind the first one. -/
def dumpElements : List BasicJson → Bytes
  | [] => []
  | elem :: elems => byte ',' :: (dump elem ++ dumpElements elems)

/-- The fields behind the first one. -/
def dumpFields : List (Bytes × BasicJson) → Bytes
  | [] => []
  | (key, value) :: fields =>
      byte ',' :: (byte '"' :: (escape_string key ++ ascii "\":") ++
        dump value ++ dumpFields fields)

end

mutual

/-- A property of a document and of everything within it. -/
def Everywhere (P : BasicJson → Prop) : BasicJson → Prop
  | .null => P .null
  | .boolean b => P (.boolean b)
  | .number_integer n => P (.number_integer n)
  | .number_float x => P (.number_float x)
  | .string s => P (.string s)
  | .array elems => P (.array elems) ∧ EverywhereIn P elems
  | .object fields => P (.object fields) ∧ EverywhereOf P fields

def EverywhereIn (P : BasicJson → Prop) : List BasicJson → Prop
  | [] => True
  | elem :: elems => Everywhere P elem ∧ EverywhereIn P elems

def EverywhereOf (P : BasicJson → Prop) : List (Bytes × BasicJson) → Prop
  | [] => True
  | (_, value) :: fields => Everywhere P value ∧ EverywhereOf P fields

end

/-- The keys of an object are in order and distinct, as those of a map are. -/
def SortedKeys : BasicJson → Prop
  | .object fields => (fields.map Prod.fst).Pairwise (· < ·)
  | _ => True

/-- A document as the library holds it. -/
def Canonical (v : BasicJson) : Prop := Everywhere SortedKeys v

section everywhere

variable {P Q R : BasicJson → Prop}

mutual

theorem Everywhere.imp₂ (h : ∀ v, P v → Q v → R v) :
    ∀ {v : BasicJson}, Everywhere P v → Everywhere Q v → Everywhere R v
  | .null, hp, hq | .boolean _, hp, hq | .number_integer _, hp, hq
  | .number_float _, hp, hq | .string _, hp, hq => by
      rw [Everywhere] at hp hq ⊢
      exact h _ hp hq
  | .array _, hp, hq => by
      rw [Everywhere] at hp hq ⊢
      exact ⟨h _ hp.1 hq.1, EverywhereIn.imp₂ h hp.2 hq.2⟩
  | .object _, hp, hq => by
      rw [Everywhere] at hp hq ⊢
      exact ⟨h _ hp.1 hq.1, EverywhereOf.imp₂ h hp.2 hq.2⟩

theorem EverywhereIn.imp₂ (h : ∀ v, P v → Q v → R v) :
    ∀ {elems : List BasicJson}, EverywhereIn P elems →
      EverywhereIn Q elems → EverywhereIn R elems
  | [], _, _ => by
      rw [EverywhereIn]
      trivial
  | _ :: _, hp, hq => by
      rw [EverywhereIn] at hp hq ⊢
      exact ⟨hp.1.imp₂ h hq.1, EverywhereIn.imp₂ h hp.2 hq.2⟩

theorem EverywhereOf.imp₂ (h : ∀ v, P v → Q v → R v) :
    ∀ {fields : List (Bytes × BasicJson)}, EverywhereOf P fields →
      EverywhereOf Q fields → EverywhereOf R fields
  | [], _, _ => by
      rw [EverywhereOf]
      trivial
  | (_, _) :: _, hp, hq => by
      rw [EverywhereOf] at hp hq ⊢
      exact ⟨hp.1.imp₂ h hq.1, EverywhereOf.imp₂ h hp.2 hq.2⟩

end

end everywhere

example : dump (.object [(ascii "a", .array [.number_integer (-12), .null]),
    (ascii "b", .string [0x61, 0x0a, 0x22, 0x01])]) =
    ascii "\x7b\"a\":[-12,null],\"b\":\"a\\n\\\"\\u0001\"\x7d" := by
  decide

end Rc2Compute.Format
