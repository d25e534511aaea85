import CipherRules.Text.Escape

/-!
# TOML — Quoted texts

The four quoted forms of a text.  A basic text stands between double quotes and knows escapes; a
literal text stands between single quotes and knows none.  Either may be tripled, and then holds
line ends and up to two of its own quotes in a row; the line end right after the opening quotes
does not count.  `Toml.quoted?` reads any of them off the start of a text.

The bodies are read character by character; what the characters before decide about the next one
is the argument in front.
-/

namespace CipherRules.Toml
open Text (Escape withChar withText)

/-- Characters that stand for themselves on one line: no control characters but the tab. -/
def isLineChar (c : Char) : Bool := c == '\t' || (' ' ≤ c && c != '\x7f')

/-- Spaces and tabs. -/
def isBlank (c : Char) : Bool := c == ' ' || c == '\t'

/-- The character of a one-letter escape. -/
def escaped? : Char → Option Char
  | 'b'  => some '\x08'
  | 'e'  => some '\x1b'
  | 't'  => some '\t'
  | 'n'  => some '\n'
  | 'f'  => some '\x0c'
  | 'r'  => some '\r'
  | '"'  => some '"'
  | '\\' => some '\\'
  | _    => none

/-- The number of digits of the escape of a code point. -/
def escapedDigits? : Char → Option Nat
  | 'x' => some 2
  | 'u' => some 4
  | 'U' => some 8
  | _   => none

/-- Reads a basic text up to its closing quote, given the escape that it is in. -/
def basic? : Option Escape → Text → Option (Text × Text)
  | _, [] => none
  | none, c :: rest =>
      if c = '"' then some ([], rest)
      else if c = '\\' then basic? (some .opened) rest
      else if isLineChar c then withChar c (basic? none rest)
      else none
  | some .opened, c :: rest =>
      match escaped? c with
      | some e => withChar e (basic? none rest)
      | none =>
          match escapedDigits? c with
          | some n => basic? (some (.digits n 0)) rest
          | none => none
  | some (.digits left value), c :: rest =>
      match Text.digest left value c with
      | .more escape => basic? (some escape) rest
      | .char e => withChar e (basic? none rest)
      | .wrong => none

/-- Reads a literal text up to its closing quote. -/
def literal? : Text → Option (Text × Text)
  | [] => none
  | c :: rest =>
      if c = '\'' then some ([], rest)
      else if isLineChar c then withChar c (literal? rest)
      else none

/-- What precedes the next character of a tripled text. -/
inductive PendingLines where
  /-- So many quotes in a row. -/
  | quotes (count : Nat)
  /-- Part of an escape. -/
  | escape (escape : Escape)
  /-- A backslash and blanks, after which the line has to end. -/
  | lineEnd
  /-- A backslash at the end of a line, which takes all blanks and line ends with it. -/
  | folding
  /-- A carriage return, which a line feed has to follow; true within a fold. -/
  | carriage (isFolding : Bool)

/-- Quotes in a row that have turned out to be content. -/
def quotesOf (quote : Char) (count : Nat) : Text := List.replicate count quote

/-- Reads a tripled basic text up to its closing quotes. -/
def basicLines? : PendingLines → Text → Option (Text × Text)
  | .quotes n, [] => if 3 ≤ n then some (quotesOf '"' (n - 3), []) else none
  | _, [] => none
  | .quotes n, c :: rest =>
      if c = '"' then
        if n = 4 then some (quotesOf '"' 2, rest) else basicLines? (.quotes (n + 1)) rest
      else if 3 ≤ n then some (quotesOf '"' (n - 3), c :: rest)
      else withText (quotesOf '"' n)
        (if c = '\\' then basicLines? (.escape .opened) rest
         else if c = '\r' then withChar c (basicLines? (.carriage false) rest)
         else if isLineChar c || c == '\n' then withChar c (basicLines? (.quotes 0) rest)
         else none)
  | .escape .opened, c :: rest =>
      match escaped? c with
      | some e => withChar e (basicLines? (.quotes 0) rest)
      | none =>
          match escapedDigits? c with
          | some n => basicLines? (.escape (.digits n 0)) rest
          | none =>
              if isBlank c then basicLines? .lineEnd rest
              else if c = '\n' then basicLines? .folding rest
              else if c = '\r' then basicLines? (.carriage true) rest
              else none
  | .escape (.digits left value), c :: rest =>
      match Text.digest left value c with
      | .more escape => basicLines? (.escape escape) rest
      | .char e => withChar e (basicLines? (.quotes 0) rest)
      | .wrong => none
  | .lineEnd, c :: rest =>
      if isBlank c then basicLines? .lineEnd rest
      else if c = '\n' then basicLines? .folding rest
      else if c = '\r' then basicLines? (.carriage true) rest
      else none
  | .folding, c :: rest =>
      if isBlank c || c == '\n' then basicLines? .folding rest
      else if c = '\r' then basicLines? (.carriage true) rest
      else if c = '"' then basicLines? (.quotes 1) rest
      else if c = '\\' then basicLines? (.escape .opened) rest
      else if isLineChar c then withChar c (basicLines? (.quotes 0) rest)
      else none
  | .carriage isFolding, c :: rest =>
      if c ≠ '\n' then none
      else if isFolding then basicLines? .folding rest
      else withChar c (basicLines? (.quotes 0) rest)

/-- Reads a tripled literal text up to its closing quotes, after so many quotes in a row. -/
def literalLines? : Nat → Text → Option (Text × Text)
  | n, [] => if 3 ≤ n then some (quotesOf '\'' (n - 3), []) else none
  | n, c :: rest =>
      if c = '\'' then
        if n = 4 then some (quotesOf '\'' 2, rest) else literalLines? (n + 1) rest
      else if 3 ≤ n then some (quotesOf '\'' (n - 3), c :: rest)
      else if c = '\r' then
        match rest with
        | '\n' :: _ => withText (quotesOf '\'' n) (withChar c (literalLines? 0 rest))
        | _ => none
      else if isLineChar c || c == '\n' then
        withText (quotesOf '\'' n) (withChar c (literalLines? 0 rest))
      else none

/-- A text without a line end at its start. -/
def afterLineEnd : Text → Text
  | '\n' :: rest => rest
  | '\r' :: '\n' :: rest => rest
  | t => t

/-- Reads a quoted text off the start of a text. -/
def quoted? : Text → Option (Text × Text)
  | '"' :: '"' :: '"' :: rest => basicLines? (.quotes 0) (afterLineEnd rest)
  | '"' :: rest => basic? none rest
  | '\'' :: '\'' :: '\'' :: rest => literalLines? 0 (afterLineEnd rest)
  | '\'' :: rest => literal? rest
  | _ => none

/-- Reads a quoted text on one line off the start of a text. -/
def quotedOnLine? : Text → Option (Text × Text)
  | '"' :: rest => basic? none rest
  | '\'' :: rest => literal? rest
  | _ => none

end CipherRules.Toml
