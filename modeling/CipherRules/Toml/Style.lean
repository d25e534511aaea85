import CipherRules.Text.Digits

/-!
# TOML — Styles

How a text is written: in the first quoted form that needs no escape but for tabs, and failing
that as a basic text with escapes, tripled when the text has several lines.  `Toml.render` writes
a text, `Toml.renderEntries` a document of keys with texts.
-/

namespace CipherRules.Toml

/-- The quoted forms of a text. -/
inductive Style where
  | basic | literal | basicLines | literalLines
  deriving DecidableEq

/-- Characters that have to be escaped, line ends and tabs apart. -/
def isControl (c : Char) : Bool := (c < ' ' || c == '\x7f') && c != '\t' && c != '\n'

/-- Whether a text has a character three times in a row. -/
def hasTriple (c : Char) : Text → Bool
  | a :: b :: d :: rest => (a == c && b == c && d == c) || hasTriple c (b :: d :: rest)
  | _ => false

/-- The style of a text. -/
def Style.of (t : Text) : Style :=
  let isPlain := !t.any isControl
  let isLine := isPlain && !t.contains '\n'
  if isLine && !t.contains '\\' && !t.contains '"' then .basic
  else if isLine && !t.contains '\'' then .literal
  else if isPlain && !t.contains '\\' && !hasTriple '"' t then .basicLines
  else if isPlain && !hasTriple '\'' t then .literalLines
  else if t.contains '\n' then .basicLines
  else .basic

/-- A character between double quotes, whether or not it stands for itself. -/
def escapeChar (c : Char) : Text :=
  match c with
  | '\x08' => .of "\\b"
  | '\t'   => .of "\\t"
  | '\n'   => .of "\\n"
  | '\x0c' => .of "\\f"
  | '\r'   => .of "\\r"
  | '"'    => .of "\\\""
  | '\\'   => .of "\\\\"
  | c      => if isControl c then Text.of "\\u" ++ Text.fixedHex 4 c.toNat else [c]

/-- The body of a tripled basic text, after so many quotes in a row; every third quote of a row is
escaped. -/
def escapeLines : Nat → Text → Text
  | _, [] => []
  | n, c :: rest =>
      if c = '"' then
        if n = 2 then escapeChar c ++ escapeLines 0 rest else c :: escapeLines (n + 1) rest
      else if c = '\n' then c :: escapeLines 0 rest
      else escapeChar c ++ escapeLines 0 rest

/-- The line end after the opening quotes of a text with several lines. -/
def openingLine (t : Text) : Text := if t.contains '\n' then ['\n'] else []

/-- A text in quotes. -/
def render (t : Text) : Text :=
  match Style.of t with
  | .basic => ['"'] ++ t.flatMap escapeChar ++ ['"']
  | .literal => ['\''] ++ t ++ ['\'']
  | .basicLines => Text.of "\"\"\"" ++ openingLine t ++ escapeLines 0 t ++ Text.of "\"\"\""
  | .literalLines => Text.of "'''" ++ openingLine t ++ t ++ Text.of "'''"

/-- Bare keys with texts, a line or more for each. -/
def renderEntries (entries : List (Text × Text)) : Text :=
  entries.flatMap fun e => e.1 ++ Text.of " = " ++ render e.2 ++ ['\n']

end CipherRules.Toml
