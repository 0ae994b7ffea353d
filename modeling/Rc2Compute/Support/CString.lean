import Mathlib.Algebra.Group.Int.Defs
import Mathlib.Algebra.Group.Nat.Defs
import Mathlib.Data.List.TakeWhile

/-!
# C library conversions of text

`atol` as the C library defines it: leading white space, an optional sign,
the longest run of digits, and a value clamped to the range of `long`.
Numbers are printed in decimal as stream insertion prints them.
-/

namespace Rc2Compute

/-- What holds for the characters of a text is decided along the text, and not
over all characters there are. -/
instance (priority := 2000) decidableAlong {P : Char → Prop}
    [DecidablePred P] (text : List Char) : Decidable (∀ c ∈ text, P c) :=
  List.decidableBAll P text

/-- The value of the longest run of digits at the start of a text. -/
def leadingDigits (text : List Char) : ℕ :=
  Nat.ofDigitChars 10 (text.takeWhile Char.isDigit) 0

/-- `isspace` in the C locale. -/
def isspace (c : Char) : Bool :=
  c ∈ [' ', '\t', '\n', '\x0b', '\x0c', '\r']

/-- `atol`. -/
def atol (text : List Char) : ℤ :=
  match text.dropWhile isspace with
  | '-' :: rest => max (-2 ^ 63) (-(leadingDigits rest : ℤ))
  | '+' :: rest => min (2 ^ 63 - 1) (leadingDigits rest)
  | rest => min (2 ^ 63 - 1) (leadingDigits rest)

/-- A natural number in decimal. -/
def decimal (n : ℕ) : List Char :=
  Nat.toDigits 10 n

theorem isDigit_of_mem_decimal {n : ℕ} {c : Char} (hc : c ∈ decimal n) :
    c.isDigit = true :=
  Nat.isDigit_of_mem_toDigits (by decide) (by decide) hc

theorem leadingDigits_decimal (n : ℕ) : leadingDigits (decimal n) = n := by
  have hall : (decimal n).takeWhile Char.isDigit = decimal n :=
    List.takeWhile_eq_self_iff.mpr fun c hc => isDigit_of_mem_decimal hc
  rw [leadingDigits, hall, decimal]
  simp

/-- Reading a printed number gives the number back. -/
theorem atol_decimal {n : ℕ} (hn : n < 2 ^ 63) : atol (decimal n) = n := by
  have hvalue : min (2 ^ 63 - 1 : ℤ) (leadingDigits (decimal n)) = n := by
    rw [leadingDigits_decimal]
    omega
  cases hdigits : decimal n with
  | nil => simpa [atol, hdigits] using hvalue
  | cons c rest =>
      have hdigit : c.isDigit = true :=
        isDigit_of_mem_decimal (n := n) (by simp [hdigits])
      have hne : ∀ d : Char, d.isDigit = false → c ≠ d := by
        rintro d hd rfl
        rw [hd] at hdigit
        cases hdigit
      have hspace : isspace c = false := by
        simp [isspace, hne ' ' (by decide), hne '\t' (by decide),
          hne '\n' (by decide), hne '\x0b' (by decide),
          hne '\x0c' (by decide), hne '\r' (by decide)]
      rw [hdigits] at hvalue
      unfold atol
      rw [List.dropWhile_cons_of_neg (by simp [hspace])]
      split
      next heq =>
        exact absurd (List.cons.inj heq).1 (hne '-' (by decide))
      next heq =>
        exact absurd (List.cons.inj heq).1 (hne '+' (by decide))
      next => exact hvalue

end Rc2Compute
