import CipherRules.Text

/-!
# Text — Digits

Numbers and characters by their digits: the value of a row of digits, code points in hexadecimal,
and decimal fractions.  A decimal fraction is kept exactly; `Decimal.fitsDouble` says whether
rounding it to a double-precision number stays finite.
-/

namespace CipherRules.Text

/-- The value of a hexadecimal digit. -/
def hexValue? (c : Char) : Option Nat :=
  if '0' ≤ c ∧ c ≤ '9' then some (c.toNat - '0'.toNat)
  else if 'a' ≤ c ∧ c ≤ 'f' then some (c.toNat - 'a'.toNat + 10)
  else if 'A' ≤ c ∧ c ≤ 'F' then some (c.toNat - 'A'.toNat + 10)
  else none

/-- Whether a character is a digit of a base up to sixteen. -/
def isDigitOf (base : Nat) (c : Char) : Bool :=
  match hexValue? c with
  | some n => n < base
  | none => false

/-- The number that a row of digits stands for. -/
def valueOf (base : Nat) (digits : Text) : Nat :=
  digits.foldl (fun n c => base * n + (hexValue? c).getD 0) 0

/-- One or more digits. -/
def isNumeral (base : Nat) (t : Text) : Bool := !t.isEmpty && t.all (isDigitOf base)

/-- The upper-case hexadecimal digit of a value. -/
def hexDigit (n : Nat) : Char :=
  if n < 10 then Char.ofNat ('0'.toNat + n) else Char.ofNat ('A'.toNat + (n - 10))

/-- The lowest digits of a number in upper-case hexadecimal, so many of them. -/
def fixedHex : Nat → Nat → Text
  | 0, _ => []
  | width + 1, n => fixedHex width (n / 16) ++ [hexDigit (n % 16)]

/-- The character of a code point. -/
def charOfCode? (n : Nat) : Option Char :=
  if n.isValidChar then some (Char.ofNat n) else none

/-- The text before the first character of a kind, and what follows it if there is one. -/
def cutAt (isMark : Char → Bool) (t : Text) : Text × Option Text :=
  (t.takeWhile fun c => !isMark c, match t.dropWhile fun c => !isMark c with
    | [] => none
    | _ :: rest => some rest)

/-- A text without the sign at its start, and whether that sign is a minus. -/
def unsign : Text → Text × Bool
  | '-' :: rest => (rest, true)
  | '+' :: rest => (rest, false)
  | t => (t, false)

/-- A natural number times a power of ten. -/
structure Decimal where
  mantissa : Nat
  exponent : Int
  deriving DecidableEq

namespace Decimal

/-- The least number that is rounded past all double-precision numbers, half a unit above the
greatest of them. -/
def leastOverflow : Nat := Nat.pow 2 1024 - Nat.pow 2 970

/-- Whether the nearest double-precision number is finite. -/
def fitsDouble (d : Decimal) : Bool :=
  if d.mantissa = 0 then true
  else match d.exponent with
    | .ofNat e => e ≤ 308 && d.mantissa * Nat.pow 10 e < leastOverflow
    | .negSucc e =>
        (ofNat d.mantissa).length ≤ e + 308 || d.mantissa < leastOverflow * Nat.pow 10 (e + 1)

/-- The fraction with these digits before and after the point, times a power of ten. -/
def ofDigits (whole fraction : Text) (exponent : Int) : Decimal :=
  ⟨valueOf 10 (whole ++ fraction), exponent - fraction.length⟩

end Decimal

/-- The exponent that a numeral with optional sign stands for. -/
def exponentOf (t : Text) : Int :=
  let (digits, isNegative) := unsign t
  if isNegative then -(valueOf 10 digits : Int) else valueOf 10 digits

end CipherRules.Text
