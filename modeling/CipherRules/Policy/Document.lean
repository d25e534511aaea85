import CipherRules.Codec
import CipherRules.Policy.Draft

/-!
# Policies — Documents

A policy is read from a document, and written as one, by a codec of which nothing is assumed here.
The entries are read in their order, so that a field that is there twice is found before a fault of
the document behind it; the policy is only looked at when the document has been read to its end
(`Policy.ofDocument`).  What is written has no entry for a description that is absent
(`Policy.record`).
-/

namespace CipherRules.Policy

/-! ### Reading -/

/-- The draft with a field filled in from a value.  Only a description may be absent although its
key is there. -/
def Draft.fill (d : Draft) (field : Field) (value : Codec.Value) : Except DocumentFault Draft :=
  match field with
  | .description =>
      match value.optionalText? with
      | some content => .ok { d with description := content }
      | none => .error .unreadable
  | field =>
      match value.text? with
      | some content => .ok (d.set field content)
      | none => .error .unreadable

/-- Fills in a draft from entries, given the fields that are there before; keys that mean nothing
may hold anything. -/
def Draft.fillAll (seen : List Field) (d : Draft) :
    List (Text × Codec.Value) → Except DocumentFault Draft
  | [] => .ok d
  | (key, value) :: rest =>
      match Field.ofKey? key with
      | none => d.fillAll seen rest
      | some field =>
          if seen.contains field then .error (.duplicate field)
          else match d.fill field value with
            | .error fault => .error fault
            | .ok d => d.fillAll (field :: seen) rest

/-- The draft in a document, which has to be read to the end of its mapping. -/
def draftOf (content : Codec.Content) : Except DocumentFault Draft :=
  match Draft.empty.fillAll [] content.entries with
  | .error fault => .error fault
  | .ok d => if content.isClosed then .ok d else .error .unreadable

/-- The policy in a document. -/
def ofDocument (codec : Codec) (document : Text) : Except DocumentFault Policy :=
  let content := codec.read document
  match draftOf content with
  | .error fault => .error fault
  | .ok d =>
      match d.complete with
      | .error fault => .error fault
      | .ok p => if content.isWhole then p.accepted else .error .unreadable

/-! ### Writing -/

/-- What is written of a policy.  A description that is absent is left out, and not written as
absent. -/
def record (p : Policy) : List (Text × Option Text) :=
  [(Field.name.key, some p.name), (Field.suites.key, some p.suites)]
    ++ if p.description.isNone then [] else [(Field.description.key, p.description)]

/-- The policy as a document, or in what words the codec refuses to write it. -/
def toDocument (codec : Codec) (p : Policy) : Except Text Text := codec.write p.record

end CipherRules.Policy
