import CipherRules.Text.Escape
import CipherRules.Yaml.Gap

/-!
# YAML — Flow scalars

The scalars that stand within lines and may go on over several of them: in single quotes, in double
quotes, and plain.  Each is read from its first character on, up to where it ends; line ends within
are folded (`Gap.text`).

A plain scalar ends where a comment, a boundary of the document or a less indented line follows a
gap, before a colon that a gap follows, and, inside brackets, before the marks that have a meaning
there.  The gap behind it has been read too when its end is known; whether it contains a line end
is part of the result.
-/

namespace CipherRules.Yaml
open Text (Escape withChar withText)

/-- Reads a text in single quotes, given the gap before the next character. -/
def single? : Place → Gap → Text → Option (Text × Cursor)
  | _, _, [] => none
  | p, g, c :: rest =>
      if isBlank c then single? p.next (g.addBlank c) rest
      else if isBreak c then single? p.nextLine (g.addBreak c) rest
      else if p.column = 0 && isBoundary (c :: rest) then none
      else withText g.text
        (if c = '\'' then
          match rest with
          | '\'' :: later => withChar c (single? (p.advance 2) .empty later)
          | _ => some ([], ⟨p.next, rest⟩)
        else withChar c (single? p.next .empty rest))

/-- The character of a one-letter escape. -/
def escaped? : Char → Option Char
  | '0'  => some '\x00'
  | 'a'  => some '\x07'
  | 'b'  => some '\x08'
  | 't'  => some '\t'
  | '\t' => some '\t'
  | 'n'  => some '\n'
  | 'v'  => some '\x0b'
  | 'f'  => some '\x0c'
  | 'r'  => some '\r'
  | 'e'  => some '\x1b'
  | ' '  => some ' '
  | '"'  => some '"'
  | '/'  => some '/'
  | '\\' => some '\\'
  | 'N'  => some '\x85'
  | '_'  => some '\xa0'
  | 'L'  => some '\u2028'
  | 'P'  => some '\u2029'
  | _    => none

/-- The number of digits of the escape of a code point. -/
def escapedDigits? : Char → Option Nat
  | 'x' => some 2
  | 'u' => some 4
  | 'U' => some 8
  | _   => none

/-- Reads a text in double quotes, given the gap before the next character and the escape that it
is in. -/
def double? : Place → Gap → Option Escape → Text → Option (Text × Cursor)
  | _, _, _, [] => none
  | p, g, none, c :: rest =>
      if isBlank c then double? p.next (g.addBlank c) none rest
      else if isBreak c then double? p.nextLine (g.addBreak c) none rest
      else if p.column = 0 && isBoundary (c :: rest) then none
      else withText g.text
        (if c = '"' then some ([], ⟨p.next, rest⟩)
         else if c = '\\' then double? p.next .empty (some .opened) rest
         else withChar c (double? p.next .empty none rest))
  | p, _, some .opened, c :: rest =>
      if isBreak c then double? p.nextLine (.breaks none []) none rest
      else match escaped? c with
        | some e => withChar e (double? p.next .empty none rest)
        | none =>
            match escapedDigits? c with
            | some n => double? p.next .empty (some (.digits n 0)) rest
            | none => none
  | p, _, some (.digits left value), c :: rest =>
      match Text.digest left value c with
      | .more escape => double? p.next .empty (some escape) rest
      | .char e => withChar e (double? p.next .empty none rest)
      | .wrong => none

/-- The marks of brackets and of what they hold. -/
def isBracketMark (c : Char) : Bool :=
  c == ',' || c == '[' || c == ']' || c == '\x7b' || c == '\x7d'

/-- Whether a plain scalar ends before a character on its line. -/
def endsPlain (inBrackets : Bool) (c : Char) (rest : Text) : Bool :=
  (c == ':' && atGap rest) || (inBrackets && isBracketMark c)

/-- Whether what follows a gap is no more part of a plain scalar. -/
def endsPlainAfterGap (inBrackets : Bool) (margin : Nat) (p : Place) (t : Text) : Bool :=
  startsWith (· == '#') t || (!inBrackets && p.column < margin)
    || (p.column == 0 && isBoundary t)

/-- Reads a plain scalar, given the gap before the next character; every line but the first has to
be indented up to the margin. -/
def plain? (inBrackets : Bool) (margin : Nat) : Place → Gap → Text → Option (Text × Bool × Cursor)
  | p, g, [] => some ([], g.hasBreak, ⟨p, []⟩)
  | p, g, c :: rest =>
      if isBreak c then plain? inBrackets margin p.nextLine (g.addBreak c) rest
      else if isBlank c then
        if g.hasBreak && p.column < margin && c == '\t' then none
        else plain? inBrackets margin p.next (g.addBlank c) rest
      else if !g.isEmpty && endsPlainAfterGap inBrackets margin p (c :: rest) then
        some ([], g.hasBreak, ⟨p, c :: rest⟩)
      else if inBrackets && c == ':' && startsWith (fun d => isBracketMark d || d == '?') rest then
        none
      else if endsPlain inBrackets c rest then some ([], g.hasBreak, ⟨p, c :: rest⟩)
      else withText g.text (withChar c (plain? inBrackets margin p.next .empty rest))

end CipherRules.Yaml
