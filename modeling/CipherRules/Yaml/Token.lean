import CipherRules.Yaml.Block
import CipherRules.Yaml.Flow

/-!
# YAML — Tokens

The smallest parts of a document that have a meaning.  The starts and ends of indented blocks are
tokens as well, although nothing stands for them but the columns of other tokens.  This module has
the readers of those tokens that consist of a word: anchors, aliases, tags and directives.
-/

namespace CipherRules.Yaml
open Text (withChar)

/-- The parts of a document. -/
inductive Token where
  /-- A `%YAML` directive. -/
  | version (major minor : Nat)
  /-- A `%TAG` directive, which gives a meaning to the start of tags. -/
  | handle (name meaning : Text)
  | documentStart
  | documentEnd
  | blockSequenceStart
  | blockMappingStart
  | blockEnd
  | flowSequenceStart
  | flowSequenceEnd
  | flowMappingStart
  | flowMappingEnd
  /-- The dash before an item of a block. -/
  | blockEntry
  /-- The comma between items in brackets. -/
  | flowEntry
  /-- What is next is the key of an entry. -/
  | key
  /-- What is next is the value of an entry. -/
  | value
  | alias (name : Text)
  | anchor (name : Text)
  | tag (handle suffix : Text)
  /-- The content of a scalar, and whether it is written without quotes. -/
  | scalar (content : Text) (isPlain : Bool)
  | endOfInput
  deriving DecidableEq

/-! ### Anchors and aliases -/

/-- What may follow the name of an anchor at once. -/
def endsAnchor (t : Text) : Bool :=
  atGap t || startsWith (fun c => (Text.of "?:,]\x7d%@`").contains c) t

/-- Reads the name of an anchor or alias. -/
def anchorName? (t : Text) : Option (Text × Text) :=
  let rest := t.dropWhile isNameChar
  if (t.takeWhile isNameChar).isEmpty || !endsAnchor rest then none
  else some (t.takeWhile isNameChar, rest)

/-! ### Tags -/

/-- The characters of a tag; between angle brackets there are some more. -/
def isTagChar (isBracketed : Bool) (c : Char) : Bool :=
  isNameChar c || (Text.of ";/?:@&=+$.%!~*'()").contains c
    || (isBracketed && (Text.of ",[]").contains c)

/-- Reads the octet of an escape. -/
def octet? : Text → Option (Nat × Text)
  | '%' :: a :: b :: rest =>
      match Text.hexValue? a, Text.hexValue? b with
      | some m, some n => some (16 * m + n, rest)
      | _, _ => none
  | _ => none

/-- Reads so many more octets of a character. -/
def moreOctets? : Nat → Nat → Text → Option (Nat × Text)
  | 0, value, t => some (value, t)
  | left + 1, value, t =>
      match octet? t with
      | some (o, rest) =>
          if 0x80 ≤ o ∧ o < 0xC0 then moreOctets? left (64 * value + (o - 0x80)) rest else none
      | none => none

/-- Reads a character that is written by its octets. -/
def octets? (t : Text) : Option (Char × Text) :=
  match octet? t with
  | none => none
  | some (o, rest) =>
      let code? :=
        if o < 0x80 then some (o, rest)
        else if o < 0xC0 then none
        else if o < 0xE0 then moreOctets? 1 (o - 0xC0) rest
        else if o < 0xF0 then moreOctets? 2 (o - 0xE0) rest
        else if o < 0xF8 then moreOctets? 3 (o - 0xF0) rest
        else none
      match code? with
      | none => none
      | some (code, rest) =>
          if o < 0x80 ∨ 0x80 ≤ code then some ((Text.charOfCode? code).getD '\ufffd', rest)
          else some ('\ufffd', rest)

/-- Reads the characters of a tag, at most as many as the bound says. -/
def tagChars? (isBracketed : Bool) : Nat → Text → Option (Text × Text)
  | 0, t => some ([], t)
  | _, [] => some ([], [])
  | bound + 1, c :: rest =>
      if !isTagChar isBracketed c then some ([], c :: rest)
      else if c = '%' then
        match octets? (c :: rest) with
        | none => none
        | some (d, later) => withChar d (tagChars? isBracketed bound later)
      else withChar c (tagChars? isBracketed bound rest)

/-- Reads one or more characters of a tag. -/
def tagText? (isBracketed : Bool) (t : Text) : Option (Text × Text) :=
  match tagChars? isBracketed t.length t with
  | some ([], _) => none
  | result => result

/-- Splits the start of a tag, which is an exclamation mark, a name and perhaps another mark. -/
def tagHandle : Text → Text × Text
  | [] => ([], [])
  | mark :: t =>
      match t.dropWhile isNameChar with
      | '!' :: rest => (mark :: t.takeWhile isNameChar ++ ['!'], rest)
      | rest => (mark :: t.takeWhile isNameChar, rest)

/-- Whether the start of a tag stands between two exclamation marks. -/
def isNamedHandle (handle : Text) : Bool := 2 ≤ handle.length && handle.getLast? == some '!'

/-- Reads a tag from its exclamation mark on. -/
def tagBody? : Text → Option (Token × Text)
  | '!' :: '<' :: t =>
      match tagText? true t with
      | some (suffix, '>' :: rest) => some (.tag [] suffix, rest)
      | _ => none
  | t =>
      let (handle, rest) := tagHandle t
      if isNamedHandle handle then
        (tagText? false rest).map fun r => (.tag handle r.1, r.2)
      else match tagChars? false rest.length rest with
        | none => none
        | some (suffix, rest) =>
            match handle.drop 1 ++ suffix with
            | [] => some (.tag [] ['!'], rest)
            | name => some (.tag ['!'] name, rest)

/-- Reads a tag, which a gap or a comma between brackets has to follow. -/
def tag? (inBrackets : Bool) (t : Text) : Option (Token × Text) :=
  match tagBody? t with
  | none => none
  | some (token, rest) =>
      if atGap rest || (inBrackets && startsWith (· == ',') rest) then some (token, rest) else none

/-! ### Directives -/

/-- Reads a number of at most nine digits. -/
def versionNumber? (t : Text) : Option (Nat × Text) :=
  let digits := t.takeWhile Char.isDigit
  if digits.isEmpty || 9 < digits.length then none
  else some (Text.valueOf 10 digits, t.dropWhile Char.isDigit)

/-- Reads two numbers with a point between them. -/
def version? (t : Text) : Option (Token × Text) :=
  match versionNumber? (t.dropWhile isBlank) with
  | some (major, '.' :: rest) =>
      (versionNumber? rest).map fun minor => (.version major minor.1, minor.2)
  | _ => none

/-- Reads the start of a tag and its meaning. -/
def handle? (t : Text) : Option (Token × Text) :=
  let (name, rest) := tagHandle (t.dropWhile isBlank)
  if name.head? != some '!' || !(isNamedHandle name || name == ['!']) then none
  else if !startsWith isBlank rest then none
  else match tagText? true (rest.dropWhile isBlank) with
    | none => none
    | some (meaning, rest) => if atGap rest then some (.handle name meaning, rest) else none

/-- Reads a directive behind its percent sign, up to the end of the line. -/
def directive? (t : Text) : Option (Token × Text) :=
  let name := t.takeWhile isNameChar
  let rest := t.dropWhile isNameChar
  if !atGap rest then none
  else
    let read :=
      if name = Text.of "YAML" then version? rest
      else if name = Text.of "TAG" then handle? rest
      else none
    match read with
    | none => none
    | some (token, rest) =>
        match skipBlanksAndComment rest with
        | [] => some (token, [])
        | c :: later => if isBreak c then some (token, c :: later) else none

end CipherRules.Yaml
