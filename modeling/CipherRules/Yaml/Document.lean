import CipherRules.Yaml.Event
import CipherRules.Yaml.Reading

/-!
# YAML — Documents

A document as the series of its parts, in which anchors have become numbers and each alias says
which number it stands for.  A name that is anchored anew gets a new number, which is the count of
the names so far; an alias to a name without anchor ends the document as an error does.
-/

namespace CipherRules.Yaml

/-- A scalar: its tag, its content, and whether it is written without quotes. -/
structure Scalar where
  tag : Option Text
  content : Text
  isPlain : Bool
  deriving DecidableEq

/-- The parts of a document in their order. -/
inductive Part where
  | scalar (s : Scalar)
  /-- What the number of an anchor stands for. -/
  | alias (number : Nat)
  | sequenceStart
  | sequenceEnd
  | mappingStart
  | mappingEnd
  deriving DecidableEq

/-- The names that have been anchored, each with its latest number. -/
abbrev Anchors := List (Text × Nat)

/-- The document as far as it could be read. -/
structure Document where
  parts : List Part
  /-- The part at which an anchored value starts, by number, the latest first. -/
  anchored : List (Nat × Part)
  /-- Whether there is nothing wrong with the document, and nothing behind it. -/
  isWhole : Bool

namespace Document

/-- Numbers a name. -/
def number (anchors : Anchors) (name : Text) : Anchors :=
  (name, anchors.length) :: anchors.filter (·.1 != name)

/-- The part of an event and the anchor of the value that starts with it, unless it is an alias to
a name without anchor. -/
def partOf? (anchors : Anchors) : Event → Option (Part × Option Text)
  | .scalar anchor tag content isPlain => some (.scalar ⟨tag, content, isPlain⟩, anchor)
  | .alias name => (anchors.lookup name).map fun n => (.alias n, none)
  | .sequenceStart anchor => some (.sequenceStart, anchor)
  | .sequenceEnd => some (.sequenceEnd, none)
  | .mappingStart anchor => some (.mappingStart, anchor)
  | .mappingEnd => some (.mappingEnd, none)

/-- The document of events that follow others, given the anchors and anchored values before. -/
def ofEvents (isWhole : Bool) : Anchors → List (Nat × Part) → List Event → Document
  | _, anchored, [] => ⟨[], anchored, isWhole⟩
  | anchors, anchored, e :: rest =>
      match partOf? anchors e with
      | none => ⟨[], anchored, false⟩
      | some (part, none) =>
          let later := ofEvents isWhole anchors anchored rest
          { later with parts := part :: later.parts }
      | some (part, some name) =>
          let later :=
            ofEvents isWhole (number anchors name) ((anchors.length, part) :: anchored) rest
          { later with parts := part :: later.parts }

/-- The first document of a text. -/
def read (t : Text) : Document :=
  let events := Events.ofTokens (tokens t)
  ofEvents events.isWhole [] [] events.events

/-- The scalar that a part is, or that an alias stands for. -/
def scalarAt? (d : Document) : Part → Option Scalar
  | .scalar s => some s
  | .alias n =>
      match d.anchored.lookup n with
      | some (.scalar s) => some s
      | _ => none
  | _ => none

/-- The parts behind a value, given the number of collections that are open. -/
def skip : Nat → List Part → Option (List Part)
  | _, [] => none
  | depth, part :: rest =>
      let depth := match part with
        | .sequenceStart | .mappingStart => depth + 1
        | .sequenceEnd | .mappingEnd => depth - 1
        | .scalar _ | .alias _ => depth
      if depth = 0 then some rest else skip depth rest

end Document

end CipherRules.Yaml
