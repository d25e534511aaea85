import CipherRules.Yaml.Character

/-!
# YAML — Gaps

Blanks and line ends inside a scalar that goes on behind them.  Blanks on a line are kept.  Where
lines end, the blanks around the line ends are dropped and the lines are folded: a single line
feed becomes a space, and of several the first is dropped (`Gap.text`).
-/

namespace CipherRules.Yaml

/-- Blanks and line ends between two characters of a scalar. -/
inductive Gap where
  /-- Blanks on one line. -/
  | blanks (t : Text)
  /-- The first line end, unless it was escaped, and those after it. -/
  | breaks (first : Option Char) (more : Text)
  deriving DecidableEq

namespace Gap

/-- No gap at all. -/
def empty : Gap := .blanks []

/-- Whether there is nothing between the two characters. -/
def isEmpty : Gap → Bool
  | .blanks t => t.isEmpty
  | .breaks _ _ => false

/-- Whether a line ends in the gap. -/
def hasBreak : Gap → Bool
  | .blanks _ => false
  | .breaks _ _ => true

/-- The gap with a blank behind it. -/
def addBlank (c : Char) : Gap → Gap
  | .blanks t => .blanks (t ++ [c])
  | .breaks first more => .breaks first more

/-- The gap with a line end behind it. -/
def addBreak (c : Char) : Gap → Gap
  | .blanks _ => .breaks (some c) []
  | .breaks first more => .breaks first (more ++ [c])

/-- What a gap contributes to the scalar. -/
def text : Gap → Text
  | .blanks t => t
  | .breaks none more => more
  | .breaks (some first) more =>
      if first ≠ '\n' then first :: more else if more.isEmpty then [' '] else more

@[simp] theorem text_empty : empty.text = [] := rfl

end Gap

end CipherRules.Yaml
