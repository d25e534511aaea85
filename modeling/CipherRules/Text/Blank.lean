import CipherRules.Text

/-!
# Text — Blank characters

Two notions of blank are in use.  Tokens of a rule string are trimmed of ASCII blanks
(`isAsciiBlank`), each of which is one byte long; a policy text counts as blank when all its
characters have the `White_Space` property (`isBlank`).
-/

namespace CipherRules.Text

/-- Space, tab, line feed, form feed and carriage return. -/
def isAsciiBlank (c : Char) : Bool :=
  c == ' ' || c == '\t' || c == '\n' || c == '\x0c' || c == '\r'

/-- The ranges of the `White_Space` property. -/
def blankRanges : List (Nat × Nat) :=
  [(0x09, 0x0D), (0x20, 0x20), (0x85, 0x85), (0xA0, 0xA0), (0x1680, 0x1680), (0x2000, 0x200A),
   (0x2028, 0x2029), (0x202F, 0x202F), (0x205F, 0x205F), (0x3000, 0x3000)]

/-- Characters with the `White_Space` property. -/
def isBlank (c : Char) : Bool := blankRanges.any fun r => r.1 ≤ c.toNat && c.toNat ≤ r.2

/-- A text without a character that is not blank. -/
def allBlank (t : Text) : Bool := t.all isBlank

/-- The text without blanks at either end. -/
def trimBlanks (t : Text) : Text := ((t.dropWhile isBlank).reverse.dropWhile isBlank).reverse

/-- The ASCII blanks at the start of a text. -/
def leadingBlanks (t : Text) : Text := t.takeWhile isAsciiBlank

/-- The text after its leading ASCII blanks. -/
def trimLeft (t : Text) : Text := t.dropWhile isAsciiBlank

/-- The text before its trailing ASCII blanks. -/
def trimRight : Text → Text
  | [] => []
  | c :: rest =>
      match trimRight rest with
      | [] => if isAsciiBlank c then [] else [c]
      | kept => c :: kept

/-- The text without ASCII blanks at either end. -/
def trim (t : Text) : Text := trimRight (trimLeft t)

theorem leadingBlanks_append_trimLeft (t : Text) : leadingBlanks t ++ trimLeft t = t :=
  List.takeWhile_append_dropWhile

end CipherRules.Text
