import CipherRules.Text.Escape
import CipherRules.Yaml.Character

/-!
# YAML — Block scalars

The scalars that are written as indented lines below their indicator.  Literal lines stay as they
are; folded lines are joined by spaces where neither of two neighbours starts with a blank.  What
becomes of the line ends behind the last line is laid down by the header (`Chomping`).
-/

namespace CipherRules.Yaml
open Text (withChar withText)

/-- What becomes of the line ends behind the last line. -/
inductive Chomping where
  /-- They are dropped. -/
  | strip
  /-- One is kept. -/
  | clip
  /-- All are kept. -/
  | keep
  deriving DecidableEq

/-- What follows the indicator of a block scalar. -/
structure BlockHeader where
  chomping : Chomping
  /-- How far the lines are indented beyond the block around them, if it is said. -/
  increment : Option Nat

/-- The chomping of an indicator. -/
def Chomping.ofIndicator? : Char → Option Chomping
  | '+' => some .keep
  | '-' => some .strip
  | _   => none

/-- Reads the digit of an indentation; there need not be one, but it cannot be zero. -/
def increment? : Text → Option (Option Nat × Text)
  | [] => some (none, [])
  | c :: rest =>
      if !c.isDigit then some (none, c :: rest)
      else if c = '0' then none
      else some (some (Text.valueOf 10 [c]), rest)

/-- Reads an indicator of chomping, which need not be there. -/
def chomping : Text → Option Chomping × Text
  | [] => (none, [])
  | c :: rest =>
      match Chomping.ofIndicator? c with
      | some chomping => (some chomping, rest)
      | none => (none, c :: rest)

/-- Reads the two indicators behind the one of the scalar, in either order. -/
def blockHeader? (t : Text) : Option (BlockHeader × Text) :=
  match chomping t with
  | (some kind, rest) =>
      match increment? rest with
      | none => none
      | some (increment, rest) => some (⟨kind, increment⟩, rest)
  | (none, t) =>
      match increment? t with
      | none => none
      | some (none, rest) => some (⟨.clip, none⟩, rest)
      | some (some n, rest) =>
          let (kind, rest) := chomping rest
          some (⟨kind.getD .clip, some n⟩, rest)

/-- The indentation of the first line that is not empty, or of a longer one of blanks before it; a
tab may not stand in it. -/
def firstIndentation? (column greatest : Nat) : Text → Option Nat
  | [] => some (max column greatest)
  | c :: rest =>
      if c = ' ' then firstIndentation? (column + 1) greatest rest
      else if c = '\t' then none
      else if isBreak c then firstIndentation? 0 (max column greatest) rest
      else some (max column greatest)

/-- The line ends between two lines: the one that ended the first, and those of empty lines. -/
structure Spacing where
  first : Text
  more : Text

namespace Spacing

/-- What the spacing becomes at the end of the scalar. -/
def tail (s : Spacing) : Chomping → Text
  | .strip => []
  | .clip => s.first
  | .keep => s.first ++ s.more

/-- What the spacing becomes between two lines, of which one may start with a blank. -/
def text (s : Spacing) (isFolded nearBlank : Bool) : Text :=
  if isFolded && s.first == ['\n'] && !nearBlank then
    if s.more.isEmpty then [' '] else s.more
  else s.first ++ s.more

end Spacing

/-- Where the reading of a block scalar stands. -/
inductive BlockState where
  /-- Left of a line, with the spacing to the line above. -/
  | margin (spacing : Spacing)
  /-- On a line. -/
  | line

/-- Reads the lines of a block scalar; the flag says whether the last line starts with a blank. -/
def blockLines? (isFolded : Bool) (chomping : Chomping) (indentation : Nat) :
    Place → BlockState → Bool → Text → Option (Text × Cursor)
  | p, .margin s, _, [] => some (s.tail chomping, ⟨p, []⟩)
  | p, .line, _, [] => some ([], ⟨p, []⟩)
  | p, .margin s, onBlank, c :: rest =>
      if p.column < indentation && c == ' ' then
        blockLines? isFolded chomping indentation p.next (.margin s) onBlank rest
      else if p.column < indentation && c == '\t' then none
      else if isBreak c then
        blockLines? isFolded chomping indentation p.nextLine (.margin ⟨s.first, s.more ++ [c]⟩)
          onBlank rest
      else if p.column < indentation then some (s.tail chomping, ⟨p, c :: rest⟩)
      else withText (s.text isFolded (onBlank || isBlank c))
        (withChar c (blockLines? isFolded chomping indentation p.next .line (isBlank c) rest))
  | p, .line, onBlank, c :: rest =>
      if isBreak c then
        blockLines? isFolded chomping indentation p.nextLine (.margin ⟨[c], []⟩) onBlank rest
      else withChar c (blockLines? isFolded chomping indentation p.next .line onBlank rest)

/-- A text without the blanks and the comment at its start. -/
def skipBlanksAndComment (t : Text) : Text :=
  match t.dropWhile isBlank with
  | '#' :: rest => rest.dropWhile fun c => !isBreak c
  | rest => rest

/-- Reads a block scalar behind its indicator, below a block with a margin. -/
def block? (isFolded : Bool) (margin : Nat) (p : Place) (t : Text) : Option (Text × Cursor) :=
  match blockHeader? t with
  | none => none
  | some (header, rest) =>
      match skipBlanksAndComment rest with
      | [] => some ([], ⟨p.next, []⟩)
      | c :: body =>
          if !isBreak c then none
          else
            let indentation? := match header.increment with
              | some n => some (if margin = 0 then n else margin - 1 + n)
              | none => (firstIndentation? 0 0 body).map fun n => max n (max margin 1)
            match indentation? with
            | none => none
            | some indentation =>
                blockLines? isFolded header.chomping indentation p.nextLine (.margin ⟨[], []⟩)
                  false body

end CipherRules.Yaml
