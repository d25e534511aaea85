import CipherRules.Codec
import CipherRules.Yaml.Document
import CipherRules.Yaml.Style

/-!
# YAML — The codec

The parts of a document as the entries of one mapping.  Any scalar gives a text, and some plain
scalars stand for its absence.  The entries are those in front of the first that is broken, so a
document may have some although it is not one of the format.
-/

namespace CipherRules.Yaml

/-- The tag of the absence of a value. -/
def nullTag : Text := .of "tag:yaml.org,2002:null"

/-- The text that a scalar gives, if any; what is tagged as absent has to be written so. -/
def Scalar.optionalText? (s : Scalar) : Option (Option Text) :=
  if !s.isPlain then some (some s.content)
  else match s.tag with
    | none =>
        some (if s.content.isEmpty || nullWords.contains s.content then none else some s.content)
    | some tag =>
        if tag ≠ nullTag then some (some s.content)
        else if nullWords.contains s.content then some none
        else none

/-- What a value gives, if it is a scalar. -/
def toValue : Option Scalar → Codec.Value
  | some s => ⟨some s.content, s.optionalText?⟩
  | none => .unsuitable

namespace Document

/-- Reads the entries of a mapping, at most as many as the bound says, and whether it ends behind
them. -/
def entries (document : Document) : Nat → List Part → List (Text × Codec.Value) × Bool
  | 0, _ => ([], false)
  | _, [] => ([], false)
  | _, .mappingEnd :: _ => ([], true)
  | bound + 1, key :: rest =>
      match document.scalarAt? key, rest with
      | some k, value :: _ =>
          let entry := (k.content, toValue (document.scalarAt? value))
          match skip 0 rest with
          | none => ([entry], false)
          | some later =>
              let (others, isClosed) := document.entries bound later
              (entry :: others, isClosed)
      | some k, [] => ([(k.content, .unsuitable)], false)
      | none, _ => ([], false)

/-- The document as one mapping; without content it counts as one without entries. -/
def content (document : Document) : Codec.Content :=
  match document.parts with
  | [] => ⟨[], document.isWhole, document.isWhole⟩
  | .scalar s :: _ => ⟨[], s.isPlain && s.content.isEmpty, document.isWhole⟩
  | .mappingStart :: rest =>
      let (entries, isClosed) := document.entries (rest.length + 1) rest
      ⟨entries, isClosed, document.isWhole⟩
  | _ => ⟨[], false, document.isWhole⟩

end Document

/-- The document of keys with texts, a line or more for each; a word tells that a text is
absent. -/
def renderPresent (entries : List (Text × Option Text)) : Text :=
  entries.flatMap fun e => endLine (e.1 ++ Text.of ": " ++ e.2.elim (.of "null") render)

/-- The codec of YAML. -/
def codec : Codec where
  read t := (Document.read t).content
  write entries := .ok (renderPresent entries)

end CipherRules.Yaml
