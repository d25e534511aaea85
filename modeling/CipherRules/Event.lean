import CipherRules.Text

/-!
# Events

What a computation reports about its course.  A traced value carries the events that led to it, in
the order in which they happened.
-/

namespace CipherRules

/-- Something worth a line in a log. -/
inductive Event where
  /-- A token at a byte position names a suite that the catalog does not have. -/
  | ignoredToken (token : Text) (position : Nat)
  /-- A rule changes nothing and is left out. -/
  | skippedRule (rule : Text)
  /-- A rule was applied and left so many suites selected. -/
  | appliedRule (rule : Text) (selected : Nat)
  /-- A rule string was found in an environment variable. -/
  | readVariable (variableName rule : Text)
  /-- The builtin catalog of so many suites was set up. -/
  | openedCatalog (suites : Nat)
  /-- A policy file of so many bytes is about to be read. -/
  | readingPolicy (file : Text) (isYaml : Bool) (bytes : Nat)
  deriving DecidableEq

/-- A value with the events that led to it. -/
structure Traced (α : Type) where
  events : List Event
  value : α

namespace Traced

variable {α β ε : Type}

/-- Goes on from a success; a failure ends the course. -/
def andThen (t : Traced (Except ε α)) (next : α → Traced (Except ε β)) : Traced (Except ε β) :=
  match t.value with
  | .error e => ⟨t.events, .error e⟩
  | .ok a => ⟨t.events ++ (next a).events, (next a).value⟩

theorem andThen_of_error {t : Traced (Except ε α)} {next : α → Traced (Except ε β)} {e : ε}
    (h : t.value = .error e) : t.andThen next = ⟨t.events, .error e⟩ := by
  rw [andThen, h]

theorem andThen_of_ok {t : Traced (Except ε α)} {next : α → Traced (Except ε β)} {a : α}
    (h : t.value = .ok a) : t.andThen next = ⟨t.events ++ (next a).events, (next a).value⟩ := by
  rw [andThen, h]

/-- The events aside, going on is going on with the value. -/
theorem value_andThen (t : Traced (Except ε α)) (next : α → Traced (Except ε β)) :
    (t.andThen next).value = t.value.bind fun a => (next a).value := by
  cases h : t.value with
  | error e => rw [andThen_of_error h]; rfl
  | ok a => rw [andThen_of_ok h]; rfl

end Traced

end CipherRules
