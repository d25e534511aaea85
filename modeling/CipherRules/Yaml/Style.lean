import CipherRules.Text.Digits
import CipherRules.Yaml.Character

/-!
# YAML — Styles

How a text is written.  A text of several lines becomes a literal block, any other stays plain
unless it would be read as something else than this text; then it is put between single quotes.
Double quotes with escapes are left for what no other style can hold.
`Yaml.render` writes a text, `Yaml.renderEntries` a document of keys with texts.
-/

namespace CipherRules.Yaml

/-! ### Words with a meaning -/

/-- The words for the absence of a value. -/
def nullWords : List Text := [Text.of "null", Text.of "Null", Text.of "NULL", Text.of "~"]

/-- The words for truth values. -/
def truthWords : List Text :=
  [Text.of "true", Text.of "True", Text.of "TRUE",
    Text.of "false", Text.of "False", Text.of "FALSE"]

/-- The words for what is no finite number, which may follow a sign or not. -/
def infinityWords : List Text := [Text.of ".inf", Text.of ".Inf", Text.of ".INF"]

/-- The words for what is no number. -/
def nanWords : List Text := [Text.of ".nan", Text.of ".NaN", Text.of ".NAN"]

/-- The base that the start of a numeral shows, and its digits. -/
def baseOf : Text → Nat × Text
  | '0' :: 'x' :: digits => (16, digits)
  | '0' :: 'o' :: digits => (8, digits)
  | '0' :: 'b' :: digits => (2, digits)
  | t => (10, t)

/-- Integers have at most 128 bits. -/
def isInteger (t : Text) : Bool :=
  let (body, isNegative) := Text.unsign t
  let (base, digits) := baseOf body
  Text.isNumeral base digits
    && Text.valueOf base digits ≤ if isNegative then Nat.pow 2 127 else Nat.pow 2 128 - 1

/-- Numerals with an optional fraction and exponent, as far as they fit a double-precision
number. -/
def isFloat (t : Text) : Bool :=
  let (significand, exponent) := Text.cutAt (fun c => c == 'e' || c == 'E') (Text.unsign t).1
  let (whole, fraction) := Text.cutAt (· == '.') significand
  Text.isNumeral 10 (whole ++ fraction.getD [])
    && (match exponent with
        | some e => Text.isNumeral 10 (Text.unsign e).1
        | none => true)
    && (Text.Decimal.ofDigits whole (fraction.getD [])
          (Text.exponentOf (exponent.getD []))).fitsDouble

/-- A sign or none, and a zero with digits behind it; this is a text to some and a number to
others. -/
def isZeroPadded (t : Text) : Bool :=
  match (Text.unsign t).1 with
  | '0' :: digits => Text.isNumeral 10 digits
  | _ => false

/-- Whether a plain text has a meaning of its own. -/
def hasMeaning (t : Text) : Bool :=
  t.isEmpty || nullWords.contains t || truthWords.contains t || nanWords.contains t
    || infinityWords.contains (Text.unsign t).1 || isInteger t || isFloat t || isZeroPadded t

/-! ### What a plain text may contain -/

/-- The characters with which a plain text cannot start. -/
def isIndicator (c : Char) : Bool := (Text.of "#,[]\x7b\x7d&*!|>'\"%@`").contains c

/-- Whether the start of a text looks like structure. -/
def startsStructure (t : Text) : Bool :=
  match t with
  | [] => false
  | c :: rest =>
      isIndicator c || ((c == '-' || c == '?' || c == ':') && atGap rest)
        || (Text.of "---").isPrefixOf t || (Text.of "...").isPrefixOf t

/-- Whether a text behind its first character looks like structure, given whether it follows a
gap. -/
def hasStructure (afterGap : Bool) : Text → Bool
  | [] => false
  | c :: rest =>
      (c == ':' && atGap rest) || (c == '#' && afterGap)
        || hasStructure (isBlank c || isBreak c) rest

/-- Whether some character is followed by one of another kind. -/
def hasPair (isFirst isSecond : Char → Bool) : Text → Bool
  | a :: b :: rest => (isFirst a && isSecond b) || hasPair isFirst isSecond (b :: rest)
  | _ => false

/-- Characters that need no escape. -/
def isPrintable (c : Char) : Bool :=
  c == '\n' || (' ' ≤ c && c ≤ '~') || ('\xa0' ≤ c && c.toNat ≤ 0xFFFD && c != '\ufeff')
    || 0x10000 ≤ c.toNat

/-! ### Styles -/

/-- The ways to write a text. -/
inductive Style where
  | plain | singleQuoted | doubleQuoted | literal
  deriving DecidableEq

/-- Whether a text needs escapes whatever its style. -/
def needsEscapes (t : Text) : Bool := !t.all isPrintable || hasPair (· == ' ') isBreak t

/-- Whether a text is plain as far as its characters go. -/
def looksPlain (t : Text) : Bool :=
  !startsStructure t && !hasStructure false (t.drop 1) && !t.any isBreak
    && t.head? != some ' ' && t.getLast? != some ' '

/-- The style of a text. -/
def Style.of (t : Text) : Style :=
  if needsEscapes t then .doubleQuoted
  else if t.contains '\n' then
    if t.getLast? == some ' ' then .doubleQuoted else .literal
  else if looksPlain t && !hasMeaning t then .plain
  else if hasPair isBreak (· == ' ') t then .doubleQuoted
  else .singleQuoted

/-- How far lines are indented. -/
def indentation : Text := [' ', ' ']

/-- Lines with the indentation in front of each that is not empty, given whether a line has just
ended. -/
def indentLines (afterBreak : Bool) (spell : Char → Text) : Text → Text
  | [] => []
  | c :: rest =>
      if isBreak c then c :: indentLines true spell rest
      else (if afterBreak then indentation else []) ++ spell c ++ indentLines false spell rest

/-- A character between single quotes. -/
def singleChar (c : Char) : Text := if c = '\'' then [c, c] else [c]

/-- A text between single quotes. -/
def renderSingle (t : Text) : Text :=
  ['\''] ++ indentLines false singleChar t
    ++ (if (t.getLast?.map isBreak).getD false then indentation else []) ++ ['\'']

/-- A character between double quotes. -/
def doubleChar (c : Char) : Text :=
  match c with
  | '\x00'  => .of "\\0"
  | '\x07'  => .of "\\a"
  | '\x08'  => .of "\\b"
  | '\t'    => .of "\\t"
  | '\n'    => .of "\\n"
  | '\x0b'  => .of "\\v"
  | '\x0c'  => .of "\\f"
  | '\r'    => .of "\\r"
  | '\x1b'  => .of "\\e"
  | '"'     => .of "\\\""
  | '\\'    => .of "\\\\"
  | '\x85'  => .of "\\N"
  | '\u2028' => .of "\\L"
  | '\u2029' => .of "\\P"
  | c =>
      if isPrintable c then [c]
      else if c.toNat ≤ 0xFF then Text.of "\\x" ++ Text.fixedHex 2 c.toNat
      else Text.of "\\u" ++ Text.fixedHex 4 c.toNat

/-- A text between double quotes. -/
def renderDouble (t : Text) : Text := ['"'] ++ t.flatMap doubleChar ++ ['"']

/-- The indicator of what becomes of the line ends behind the last line. -/
def chompingOf (t : Text) : Text :=
  match t.reverse with
  | c :: rest =>
      if !isBreak c then ['-'] else if startsWith isBreak rest || rest.isEmpty then ['+'] else []
  | [] => ['-']

/-- The indicator of the indentation, where the first line does not show it. -/
def indentationOf (t : Text) : Text :=
  if startsWith (fun c => c == ' ' || isBreak c) t then ['2'] else []

/-- A text as a literal block, without the line end behind it if there is none in the text. -/
def renderLiteral (t : Text) : Text :=
  ['|'] ++ indentationOf t ++ chompingOf t ++ ['\n'] ++ indentLines true (fun c => [c]) t

/-- A text in its style. -/
def render (t : Text) : Text :=
  match Style.of t with
  | .plain => t
  | .singleQuoted => renderSingle t
  | .doubleQuoted => renderDouble t
  | .literal => renderLiteral t

/-- A line, ended if it is not. -/
def endLine (t : Text) : Text := if (t.getLast?.map isBreak).getD false then t else t ++ ['\n']

/-- Plain keys with texts, a line or more for each. -/
def renderEntries (entries : List (Text × Text)) : Text :=
  entries.flatMap fun e => endLine (e.1 ++ Text.of ": " ++ render e.2)

end CipherRules.Yaml
