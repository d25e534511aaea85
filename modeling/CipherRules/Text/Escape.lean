import CipherRules.Text.Digits

/-!
# Text — Escapes

What the readers of quoted texts share.  A reader goes through a text character by character;
`Escape` is what it has to remember of an escape that it is in.  What it has read is put together
from the end (`withChar`, `withText`), each result standing with what follows it.
-/

namespace CipherRules.Text

/-- The part of an escape that has been read. -/
inductive Escape where
  /-- The backslash. -/
  | opened
  /-- The start of a code point that has so many digits to come, with the value of those before. -/
  | digits (left : Nat) (value : Nat)

/-- What a digit makes of the escape of a code point. -/
inductive Digested where
  /-- The escape goes on. -/
  | more (escape : Escape)
  /-- The escape is complete. -/
  | char (c : Char)
  /-- The character is no digit, or the code point no character. -/
  | wrong

/-- Takes the next digit of an escape. -/
def digest (left value : Nat) (c : Char) : Digested :=
  match hexValue? c with
  | none => .wrong
  | some d =>
      if left ≤ 1 then
        match charOfCode? (16 * value + d) with
        | some e => .char e
        | none => .wrong
      else .more (.digits (left - 1) (16 * value + d))

/-- A result with a text in front. -/
def withText {α : Type} (s : Text) : Option (Text × α) → Option (Text × α)
  | some (t, rest) => some (s ++ t, rest)
  | none => none

/-- A result with a character in front. -/
def withChar {α : Type} (c : Char) (result : Option (Text × α)) : Option (Text × α) :=
  withText [c] result

end CipherRules.Text
