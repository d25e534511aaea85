import CipherRules.Limits
import CipherRules.Toml.Names
import CipherRules.Toml.Quoted
import CipherRules.Toml.Scalar

/-!
# TOML — Documents

Reads a whole document into the names that it gives (`Toml.read?`).  Of the values only texts are
kept; arrays, inline tables and scalars are checked and closed.  Line ends and comments may stand
between any two parts of an array or inline table, but not in a key.  The functions follow the
text, and the number in front bounds their recursion: it starts above the length of the text and
decreases with each construct, of which none is empty.
-/

namespace CipherRules.Toml

/-! ### Blanks, comments and line ends -/

/-- A text without the blanks at its start. -/
def skipBlanks (t : Text) : Text := t.dropWhile isBlank

/-- Reads a line end. -/
def lineEnd? : Text → Option Text
  | '\n' :: rest => some rest
  | '\r' :: '\n' :: rest => some rest
  | _ => none

/-- A text without the comment at its start. -/
def skipComment : Text → Text
  | '#' :: rest => rest.dropWhile isLineChar
  | t => t

/-- Reads what may follow on a line, up to the next line or the end. -/
def endLine? (t : Text) : Option Text :=
  match skipComment (skipBlanks t) with
  | [] => some []
  | rest => lineEnd? rest

/-- A text without the blanks, comments and line ends at its start; there may be as many comments
and line ends as the bound says. -/
def skipLines : Nat → Text → Text
  | 0, t => t
  | bound + 1, t =>
      let rest := skipComment (skipBlanks t)
      match lineEnd? rest with
      | some later => skipLines bound later
      | none => rest

/-! ### Keys -/

/-- The characters of a key without quotes. -/
def isBareKeyChar (c : Char) : Bool := c.isAlphanum || c == '_' || c == '-'

/-- Reads one part of a key. -/
def simpleKey? (t : Text) : Option (Text × Text) :=
  match quotedOnLine? t with
  | some read => some read
  | none =>
      if (t.takeWhile isBareKeyChar).isEmpty then none
      else some (t.takeWhile isBareKeyChar, t.dropWhile isBareKeyChar)

/-- Reads the parts of a key and the blanks around them. -/
def keyParts? : Nat → Text → Option (Path × Text)
  | 0, _ => none
  | bound + 1, t =>
      match simpleKey? (skipBlanks t) with
      | none => none
      | some (part, rest) =>
          match skipBlanks rest with
          | '.' :: later =>
              match keyParts? bound later with
              | none => none
              | some (parts, rest) => some (part :: parts, rest)
          | rest => some ([part], rest)

/-- Reads a key, which may not have too many parts. -/
def key? (bound : Nat) (t : Text) : Option (Path × Text) :=
  match keyParts? bound t with
  | none => none
  | some (key, rest) => if key.length ≤ Limits.keyParts then some (key, rest) else none

/-! ### Values -/

mutual

/-- Reads a value at some depth of arrays and inline tables. -/
def value? : Nat → Nat → Text → Option (Value × Text)
  | 0, _, _ => none
  | bound + 1, depth, t =>
      match t with
      | '[' :: rest =>
          if depth < Limits.nestedValues then
            (items? bound (depth + 1) rest).map (.closed, ·)
          else none
      | '\x7b' :: rest =>
          if depth < Limits.nestedValues then
            (entries? bound (depth + 1) [] rest).map (.closed, ·)
          else none
      | t =>
          if t.head? == some '"' || t.head? == some '\'' then
            match quoted? t with
            | some (content, rest) => some (.text content, rest)
            | none => none
          else (scalar? t).map (.closed, ·)

/-- Reads the items of an array up to its end; after the last a comma may stand. -/
def items? : Nat → Nat → Text → Option Text
  | 0, _, _ => none
  | bound + 1, depth, t =>
      match skipLines bound t with
      | ']' :: rest => some rest
      | t =>
          match value? bound depth t with
          | none => none
          | some (_, rest) =>
              match skipLines bound rest with
              | ']' :: later => some later
              | ',' :: later => items? bound depth later
              | _ => none

/-- Reads the entries of an inline table up to its end, given the names of those before; after the
last a comma may stand. -/
def entries? : Nat → Nat → Names → Text → Option Text
  | 0, _, _, _ => none
  | bound + 1, depth, names, t =>
      match skipLines bound t with
      | '\x7d' :: rest => some rest
      | t =>
          match key? bound t with
          | none => none
          | some (key, rest) =>
              match skipLines bound rest with
              | '=' :: rest =>
                  match value? bound depth (skipLines bound rest) with
                  | none => none
                  | some (v, rest) =>
                      match names.assign? [] key v with
                      | none => none
                      | some names =>
                          match skipLines bound rest with
                          | '\x7d' :: later => some later
                          | ',' :: later => entries? bound depth names later
                          | _ => none
              | _ => none

end

/-! ### Lines -/

/-- Reads a key with its value in a table. -/
def entry? (bound : Nat) (names : Names) (table : Path) (t : Text) : Option (Names × Text) :=
  match key? bound t with
  | some (key, '=' :: rest) =>
      match value? bound 0 (skipBlanks rest) with
      | none => none
      | some (v, rest) => (names.assign? table key v).map (·, rest)
  | _ => none

/-- Reads the header of a table after its bracket. -/
def header? (bound : Nat) (names : Names) (t : Text) : Option (Names × Path × Text) :=
  match key? bound t with
  | some (key, ']' :: rest) => (names.open? key).map (·, key, rest)
  | _ => none

/-- Reads the header of one more table of an array after its two brackets. -/
def seriesHeader? (bound : Nat) (names : Names) (t : Text) : Option (Names × Path × Text) :=
  match key? bound t with
  | some (key, ']' :: ']' :: rest) => (names.append? key).map (·, key, rest)
  | _ => none

/-- Reads lines up to the end, given the names before and the table that is open. -/
def lines? : Nat → Names → Path → Text → Option Names
  | 0, _, _, _ => none
  | bound + 1, names, table, t =>
      match skipLines bound t with
      | [] => some names
      | '[' :: '[' :: rest =>
          match seriesHeader? bound names rest with
          | none => none
          | some (names, table, rest) => (endLine? rest).bind (lines? bound names table)
      | '[' :: rest =>
          match header? bound names rest with
          | none => none
          | some (names, table, rest) => (endLine? rest).bind (lines? bound names table)
      | t =>
          match entry? bound names table t with
          | none => none
          | some (names, rest) => (endLine? rest).bind (lines? bound names table)

/-- A text without the byte order mark at its start. -/
def skipByteOrderMark : Text → Text
  | '\ufeff' :: rest => rest
  | t => t

/-- The names that a document gives, if it is a document. -/
def read? (t : Text) : Option Names :=
  let body := skipByteOrderMark t
  lines? (body.length + 1) [] [] body

end CipherRules.Toml
