import CipherRules.Policy

/-!
# Policies — Drafts

What a document says about a policy, in whatever format it is written.  A document is a series of
fields; a draft holds the fields seen so far, and makes a policy when it is complete
(`Draft.complete`), which is accepted if it has no fault (`Policy.accepted`).  `Policy.fields` is
the series that a policy is written as; it makes a draft (`Policy.foldl_set_fields`), and that the
policy again (`Policy.complete_draft`).
-/

namespace CipherRules

namespace Policy

/-- The fields of a policy document. -/
inductive Field where
  | name | suites | description
  deriving DecidableEq

namespace Field

/-- The key under which a field stands. -/
def key : Field → Text
  | .name => .of "name"
  | .suites => .of "suites"
  | .description => .of "description"

/-- The field of a key; other keys mean nothing. -/
def ofKey? (k : Text) : Option Field :=
  [Field.name, .suites, .description].find? (·.key == k)

@[simp] theorem ofKey?_key (f : Field) : ofKey? f.key = some f := by
  cases f <;> decide

end Field

/-- Why a document holds no policy. -/
inductive DocumentFault where
  /-- A field that every policy has is not there. -/
  | missing (field : Field)
  /-- A field is there twice. -/
  | duplicate (field : Field)
  /-- Name and rule string make no policy. -/
  | invalid (fault : PolicyFault)
  /-- The document is no document of its format, or a field is no text. -/
  | unreadable
  deriving DecidableEq

/-- The wording of a fault that has one in every format. -/
def DocumentFault.message? : DocumentFault → Option Text
  | .missing field => some (Text.of "missing field `" ++ field.key ++ ['`'])
  | .duplicate field => some (Text.of "duplicate field `" ++ field.key ++ ['`'])
  | .invalid fault => some fault.message
  | .unreadable => none

/-- The fields of a policy document that have been seen. -/
structure Draft where
  name : Option Text
  suites : Option Text
  description : Option Text
  deriving DecidableEq

namespace Draft

/-- The draft in which no field has been seen. -/
def empty : Draft := ⟨none, none, none⟩

/-- The draft with a field filled in. -/
def set (d : Draft) (field : Field) (content : Text) : Draft :=
  match field with
  | .name => { d with name := some content }
  | .suites => { d with suites := some content }
  | .description => { d with description := some content }

/-- The policy of a draft, which may have a fault, if the fields that every policy has are there. -/
def complete (d : Draft) : Except DocumentFault Policy :=
  match d.name, d.suites with
  | none, _ => .error (.missing .name)
  | some _, none => .error (.missing .suites)
  | some name, some suites => .ok ⟨name, suites, d.description⟩

end Draft

/-- The policy itself, unless it has a fault; a document is read to its end before this is asked. -/
def accepted (p : Policy) : Except DocumentFault Policy :=
  match p.checked with
  | .error fault => .error (.invalid fault)
  | .ok p => .ok p

/-- What is accepted has no fault, and is not changed. -/
theorem accepted_eq_ok_iff {p q : Policy} : p.accepted = .ok q ↔ p.fault? = none ∧ p = q := by
  rw [← checked_eq_ok_iff]
  unfold accepted
  split <;> simp_all

/-! ### Policies as drafts -/

/-- The fields of a policy in the order in which they are written. -/
def fields (p : Policy) : List (Field × Text) :=
  [(.name, p.name), (.suites, p.suites)]
    ++ match p.description with
       | some description => [(.description, description)]
       | none => []

/-- The draft of a policy. -/
def draft (p : Policy) : Draft := ⟨some p.name, some p.suites, p.description⟩

/-- The fields of a policy make its draft. -/
theorem foldl_set_fields (p : Policy) :
    p.fields.foldl (fun d f => d.set f.1 f.2) Draft.empty = p.draft := by
  obtain ⟨name, suites, description⟩ := p
  cases description <;> rfl

/-- The draft of a policy makes the policy. -/
theorem complete_draft (p : Policy) : p.draft.complete = .ok p := rfl

end Policy

end CipherRules
