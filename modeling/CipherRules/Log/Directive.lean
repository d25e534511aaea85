import CipherRules.Log
import CipherRules.Text.Alphanumeric
import CipherRules.Text.Blank
import CipherRules.Text.Digits

/-!
# Logs — Directives

A directive lays down a level for some of the events: for all, for those whose target begins in a
given way, or for those that have a given field.  It is written as a level, as a target, or as a
target with a span in brackets, of which either may be left out, and a level behind an equals sign;
the field stands between braces at the end of the span.  Without a level everything is shown.

    debug    core_suites    core_suites=debug    core_suites[{rule}]=debug

A span is a section of a run that has a name and fields of its own.  This program opens none, so a
directive that asks for a span by its name, or for the value of a field in one, matches no event.

Blanks around a directive are passed over when its parts are looked for, but the parts are counted
from the start of the word as it stands, so that blanks in front displace them.
-/

namespace CipherRules

/-- The level that a word names, in whatever case, or that its number does. -/
def Level.ofWord? (word : Text) : Option Level :=
  let digits := match word with
    | '+' :: digits => digits
    | word => word
  if !digits.isEmpty && digits.all Char.isDigit then Level.all[Text.valueOf 10 digits]?
  else Level.all.find? fun l => l.label == word.map Char.toUpper

/-- Which events, and the level up to which they are shown. -/
structure Directive where
  /-- What the targets of the events begin with. -/
  target : Text
  /-- The name of a span. -/
  span : Option Text
  /-- The name of a field, perhaps with its value in a span. -/
  field : Option (Text × Option Text)
  level : Level
  deriving DecidableEq

/-- Why a word is no directive. -/
inductive DirectiveFault where
  /-- The parts are not as they should be. -/
  | malformed
  /-- What should be a level is none. -/
  | unknownLevel
  deriving DecidableEq

/-- The wording of the fault. -/
def DirectiveFault.message : DirectiveFault → Text
  | .malformed => .of "invalid filter directive"
  | .unknownLevel =>
      Text.of "error parsing level filter: expected one of "
        ++ Text.of "\"off\", \"error\", \"warn\", \"info\", \"debug\", \"trace\", or a number 0-5"

namespace Directive

/-- The directive that shows everything of a target. -/
def ofTarget (target : Text) : Directive := ⟨target, none, none, .trace⟩

/-- The directive for everything. -/
def ofLevel (level : Level) : Directive := ⟨[], none, none, level⟩

/-! ### Matching -/

/-- Whether an event has a field; the wording counts as one. -/
def hasField (name : Text) (e : Event) : Bool :=
  name == Text.of "message" || e.fields.any (·.1 == name)

/-- Whether a directive is about an event. -/
def isAbout (d : Directive) (e : Event) : Bool :=
  d.target.isPrefixOf e.target && d.span.isNone
    && match d.field with
       | none => true
       | some (name, none) => hasField name e
       | some (_, some _) => false

/-- Whether one directive gives way to a later one about the same event.  The longer target
prevails, then a field over none, then the field whose name is greater. -/
def givesWayTo (d later : Directive) : Bool :=
  if d.target.length ≠ later.target.length then d.target.length < later.target.length
  else match d.field, later.field with
    | none, _ => true
    | some _, none => false
    | some f, some g => !(g.1 < f.1)

/-! ### Reading -/

/-- What stands between two places of a word. -/
def part (word : Text) (start stop : Nat) : Text := (word.drop start).take (stop - start)

/-- Reads the level from a place to the end of a word. -/
def readLevel (word : Text) (start : Nat) : Except DirectiveFault Level :=
  match word.drop start with
  | [] => .ok .trace
  | name =>
      match Level.ofWord? name with
      | some level => .ok level
      | none => .error .unknownLevel

/-- Reads what follows a span: nothing, or a level. -/
def readEnd (d : Directive) (word : Text) (start : Nat) : Text → Except DirectiveFault Directive
  | [] => .ok d
  | '=' :: _ => (readLevel word (start + 1)).map fun level => { d with level := level }
  | _ => .error .malformed

/-- Reads a span and what follows it, given what stands behind the bracket. -/
def readSpan (target word : Text) (start : Nat) (t : Text) : Except DirectiveFault Directive :=
  let name := t.takeWhile fun c => c != ']' && c != '\x7b'
  let stop := start + name.length
  match t.drop name.length with
  | ']' :: rest =>
      readEnd { ofTarget target with span := some (part word start stop) } word (stop + 1) rest
  | '\x7b' :: rest =>
      let condition := rest.takeWhile (· != '\x7d')
      let stop' := stop + 1 + condition.length
      match rest.drop condition.length with
      | '\x7d' :: ']' :: rest =>
          if condition.isEmpty then .error .malformed
          else
            let (field, value) := Text.cutAt (· == '=') (part word (stop + 1) stop')
            let span := if name.isEmpty then none else some (part word start stop)
            readEnd { ofTarget target with span := span, field := some (field, value) }
              word (stop' + 2) rest
      | _ => .error .malformed
  | _ => .error .malformed

/-- Whether a directive can start with a character. -/
def isStart (c : Char) : Bool :=
  c == '-' || c == ':' || c == '_' || c == '[' || Text.isAlphanumeric c

/-- Reads a directive. -/
def read (word : Text) : Except DirectiveFault Directive :=
  let t := Text.trimBlanks word
  if !(t.head?.map isStart).getD false then .error .malformed
  else
    let length := (t.takeWhile fun c => c != '=' && c != '[').length
    let target := part word 0 length
    match t.drop length with
    | '[' :: rest => readSpan target word (length + 1) rest
    | '=' :: _ =>
        (readLevel word (length + 1)).map fun level => { ofTarget target with level := level }
    | _ =>
        match Level.ofWord? word with
        | some level => .ok (ofLevel level)
        | none => .ok (ofTarget word)

end Directive

end CipherRules
