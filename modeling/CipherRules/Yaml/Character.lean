import CipherRules.Text

/-!
# YAML — Characters and places

The character classes that decide about the structure of a document, and places in it.  All of the
line ends that are common in files count as one line feed (`unifyBreaks`); the two separators of
Unicode remain, and end a line as well.
-/

namespace CipherRules.Yaml

/-- Whether a document may hold a character. -/
def isAllowed (c : Char) : Bool :=
  c == '\t' || c == '\n' || c == '\r' || (' ' ≤ c && c ≤ '~') || c == '\x85'
    || ('\xa0' ≤ c && c.toNat ≤ 0xFFFD) || 0x10000 ≤ c.toNat

/-- Line feed, line separator and paragraph separator. -/
def isBreak (c : Char) : Bool := c == '\n' || c == '\u2028' || c == '\u2029'

/-- Space and tab. -/
def isBlank (c : Char) : Bool := c == ' ' || c == '\t'

/-- The characters of names. -/
def isNameChar (c : Char) : Bool := c.isAlphanum || c == '_' || c == '-'

/-- Every line end as a line feed. -/
def unifyBreaks : Text → Text
  | [] => []
  | '\r' :: '\n' :: rest => '\n' :: unifyBreaks rest
  | c :: rest => (if c = '\r' ∨ c = '\x85' then '\n' else c) :: unifyBreaks rest

/-- Whether a text begins with one of some characters. -/
def startsWith (isFirst : Char → Bool) : Text → Bool
  | [] => false
  | c :: _ => isFirst c

/-- Whether a word ends here: before a blank, a line end or the end. -/
def atGap : Text → Bool
  | [] => true
  | c :: _ => isBlank c || isBreak c

/-- Whether a line starts with the mark between two documents, or with that at the end of one. -/
def startsWithMark (mark : Char) : Text → Bool
  | a :: b :: c :: rest => a == mark && b == mark && c == mark && atGap rest
  | _ => false

/-- Whether a line bounds a document. -/
def isBoundary (t : Text) : Bool := startsWithMark '-' t || startsWithMark '.' t

/-- A line and a column, both from zero. -/
structure Place where
  line : Nat
  column : Nat
  deriving DecidableEq

namespace Place

/-- So many characters further on the line. -/
def advance (p : Place) (n : Nat) : Place := ⟨p.line, p.column + n⟩

/-- One character further on the line. -/
def next (p : Place) : Place := p.advance 1

/-- The start of the next line. -/
def nextLine (p : Place) : Place := ⟨p.line + 1, 0⟩

end Place

/-- What is left of a document, and where it starts. -/
structure Cursor where
  place : Place
  rest : Text

/-- The cursor behind what lies between two texts on one line. -/
def Cursor.skipTo (c : Cursor) (rest : Text) : Cursor :=
  ⟨c.place.advance (c.rest.length - rest.length), rest⟩

end CipherRules.Yaml
