import CipherRules.Selection

/-!
# Policies

A policy is a named rule string with an optional description.  Name and rule string are bounded in
length and neither may be blank; `Policy.fault?` finds the first of these conditions that fails,
and `Policy.ofRule?` makes a policy only where none does.  The rule string itself is not looked
into before a selection is asked for.
-/

namespace CipherRules

/-- A named rule string. -/
structure Policy where
  name : Text
  suites : Text
  description : Option Text
  deriving DecidableEq

/-- Why a name and a rule string make no policy. -/
inductive PolicyFault where
  /-- The name has too many bytes. -/
  | nameTooLong (length : Nat)
  | blankName
  | blankSuites
  /-- The rule string has too many bytes. -/
  | suitesTooLong (length : Nat)
  deriving DecidableEq

/-- The wording of the fault. -/
def PolicyFault.message : PolicyFault → Text
  | .nameTooLong length =>
      Text.of "Policy name exceeds maximum " ++ Text.ofNat Limits.policyNameBytes
        ++ Text.of " characters (length: " ++ Text.ofNat length ++ [')']
  | .blankName => .of "Invalid cipher policy: Policy name cannot be empty"
  | .blankSuites => .of "Invalid cipher policy: Policy suites cannot be empty"
  | .suitesTooLong length => (SelectionError.ruleStringTooLong length).message

namespace Policy

/-- The first condition on name and rule string that fails. -/
def fault? (p : Policy) : Option PolicyFault :=
  if Limits.policyNameBytes < Text.byteLength p.name then
    some (.nameTooLong (Text.byteLength p.name))
  else if Text.allBlank p.name then some .blankName
  else if Text.allBlank p.suites then some .blankSuites
  else if Limits.ruleStringBytes < Text.byteLength p.suites then
    some (.suitesTooLong (Text.byteLength p.suites))
  else none

/-- The policy itself, unless it has a fault. -/
def checked (p : Policy) : Except PolicyFault Policy :=
  match p.fault? with
  | some fault => .error fault
  | none => .ok p

/-- The policy of a name and a rule string, without description. -/
def ofRule? (name suites : Text) : Except PolicyFault Policy := checked ⟨name, suites, none⟩

/-- The policy with another description. -/
def withDescription (p : Policy) (description : Text) : Policy :=
  { p with description := some description }

/-- What the policy selects from a catalog. -/
def selection (p : Policy) (catalog : Catalog) : Traced (Except SelectionError Selection) :=
  Selection.ofRuleString catalog p.suites

theorem checked_eq_ok_iff {p q : Policy} : p.checked = .ok q ↔ p.fault? = none ∧ p = q := by
  unfold checked
  split <;> simp_all

/-- A description has no bearing on the conditions. -/
@[simp] theorem fault?_withDescription (p : Policy) (description : Text) :
    (p.withDescription description).fault? = p.fault? := rfl

end Policy

end CipherRules
