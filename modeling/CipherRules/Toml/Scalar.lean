import CipherRules.Text.Digits

/-!
# TOML — Scalars

The values that are written without quotes: truth values, integers, floating-point numbers, dates
and times.  A policy has no use for such a value, so `Toml.isScalar` only says whether a word is
one.  Digits may be grouped by single underscores, integers have at most 128 bits, floating-point
numbers must not overflow, and a time may do without seconds.
-/

namespace CipherRules.Toml

/-! ### Numbers -/

/-- Digits with single underscores between them. -/
def isGrouped (base : Nat) (t : Text) : Bool := (Text.pieces '_' t).all (Text.isNumeral base)

/-- The digits of a grouped numeral. -/
def ungrouped (t : Text) : Text := t.filter (· != '_')

/-- A grouped decimal numeral without a leading zero. -/
def isWhole (t : Text) : Bool := isGrouped 10 t && (t.length == 1 || t.head? != some '0')

/-- The greatest integer. -/
def greatestInteger : Nat := Nat.pow 2 128 - 1

/-- The greatest amount below zero. -/
def greatestNegative : Nat := Nat.pow 2 127

/-- Integers in base ten may have a sign; those in another base show it by two characters. -/
def isInteger (t : Text) : Bool :=
  match t with
  | '0' :: 'x' :: digits => isUnsigned 16 digits
  | '0' :: 'o' :: digits => isUnsigned 8 digits
  | '0' :: 'b' :: digits => isUnsigned 2 digits
  | t =>
      let (digits, isNegative) := Text.unsign t
      isWhole digits && Text.valueOf 10 (ungrouped digits) ≤
        if isNegative then greatestNegative else greatestInteger
where
  /-- Digits of a base that stand for an integer. -/
  isUnsigned (base : Nat) (digits : Text) : Bool :=
    isGrouped base digits && Text.valueOf base (ungrouped digits) ≤ greatestInteger

/-- Floating-point numbers have a fraction, an exponent or both, or are no numbers at all. -/
def isFloat (t : Text) : Bool :=
  let digits := (Text.unsign t).1
  if digits == Text.of "inf" || digits == Text.of "nan" then true
  else
    let (significand, exponent) := Text.cutAt (fun c => c == 'e' || c == 'E') digits
    let (whole, fraction) := Text.cutAt (· == '.') significand
    isWhole whole
      && (match fraction with
          | some f => isGrouped 10 f
          | none => exponent.isSome)
      && (match exponent with
          | some e => isGrouped 10 (Text.unsign e).1
          | none => true)
      && (Text.Decimal.ofDigits (ungrouped whole) (ungrouped (fraction.getD []))
            (Text.exponentOf (ungrouped (exponent.getD [])))).fitsDouble

/-! ### Dates and times -/

/-- The number that exactly so many decimal digits stand for. -/
def fixedNumber? (width : Nat) (t : Text) : Option Nat :=
  if t.length = width ∧ Text.isNumeral 10 t then some (Text.valueOf 10 t) else none

/-- The number of days of a month. -/
def daysIn (year month : Nat) : Nat :=
  if month = 2 then
    if year % 4 = 0 ∧ (year % 100 ≠ 0 ∨ year % 400 = 0) then 29 else 28
  else if [4, 6, 9, 11].contains month then 30
  else 31

/-- A date of the calendar: year, month and day. -/
def isDate (t : Text) : Bool :=
  match Text.pieces '-' t with
  | [y, m, d] =>
      match fixedNumber? 4 y, fixedNumber? 2 m, fixedNumber? 2 d with
      | some year, some month, some day =>
          1 ≤ month && month ≤ 12 && 1 ≤ day && day ≤ daysIn year month
      | _, _, _ => false
  | _ => false

/-- A number of two digits that is not above a bound. -/
def isTwoDigits (greatest : Nat) (t : Text) : Bool :=
  match fixedNumber? 2 t with
  | some n => n ≤ greatest
  | none => false

/-- A time of day: hour and minute, and perhaps a second, which may be a leap second and may have a
fraction. -/
def isTime (t : Text) : Bool :=
  match Text.pieces ':' t with
  | [h, m] => isTwoDigits 23 h && isTwoDigits 59 m
  | [h, m, s] =>
      let (second, fraction) := Text.cutAt (· == '.') s
      isTwoDigits 23 h && isTwoDigits 59 m && isTwoDigits 60 second
        && match fraction with
           | some f => Text.isNumeral 10 f
           | none => true
  | _ => false

/-- The distance from universal time in hours and minutes. -/
def isOffset (t : Text) : Bool :=
  match Text.pieces ':' t with
  | [h, m] => isTwoDigits 23 h && isTwoDigits 59 m
  | _ => false

/-- A time of day that may say how far it is from universal time. -/
def isZonedTime (t : Text) : Bool :=
  if t.getLast? == some 'Z' || t.getLast? == some 'z' then isTime t.dropLast
  else match Text.cutAt (fun c => c == '+' || c == '-') t with
    | (time, some offset) => isTime time && isOffset offset
    | (time, none) => isTime time

/-- A date, a time of day, or both with a mark between them. -/
def isMoment (t : Text) : Bool :=
  match Text.cutAt (fun c => c == 'T' || c == 't' || c == ' ') t with
  | (date, some time) => isDate date && isZonedTime time
  | (moment, none) => isDate moment || isTime moment

/-! ### Words -/

/-- Whether a word is a value. -/
def isScalar (t : Text) : Bool :=
  t == Text.of "true" || t == Text.of "false" || isInteger t || isFloat t || isMoment t

/-- The characters that words are made of. -/
def isWordChar (c : Char) : Bool :=
  c.isAlphanum || c == '_' || c == '-' || c == '+' || c == '.' || c == ':'

/-- Reads an unquoted value; a single space may stand between a date and a time. -/
def scalar? (t : Text) : Option Text :=
  let word := t.takeWhile isWordChar
  let rest := t.dropWhile isWordChar
  match rest with
  | ' ' :: c :: later =>
      if isDate word && c.isDigit then
        if isMoment (word ++ ' ' :: (c :: later).takeWhile isWordChar) then
          some ((c :: later).dropWhile isWordChar)
        else none
      else if isScalar word then some rest else none
  | _ => if isScalar word then some rest else none

end CipherRules.Toml
