import CipherRules.Selection

/-!
# The environment

Rule strings in environment variables.  A variable that is not set gives no rule string, and no
other takes its place; one that is set but holds no text is an error.
-/

namespace CipherRules

/-- What an environment variable holds. -/
inductive VariableValue where
  | unset
  | text (t : Text)
  /-- Bytes that are no text. -/
  | notText
  deriving DecidableEq

/-- Why an environment variable gives no selection. -/
inductive EnvironmentError where
  | notText (name : Text)
  | selection (e : SelectionError)
  deriving DecidableEq

/-- The wording of the error. -/
def EnvironmentError.message : EnvironmentError → Text
  | .notText name => Text.of "Environment variable " ++ name ++ Text.of " is not valid UTF-8"
  | .selection e => e.message

namespace Environment

/-- The variable that is asked where no other is named. -/
def defaultVariable : Text := .of "SUITESEL_CIPHER_SUITES"

/-- The rule string in a variable, if it is set. -/
def ruleString (name : Text) : VariableValue → Traced (Except EnvironmentError (Option Text))
  | .unset => ⟨[], .ok none⟩
  | .text rule => ⟨[.readVariable name rule], .ok (some rule)⟩
  | .notText => ⟨[], .error (.notText name)⟩

/-- The selection that the rule string in a variable makes, if the variable is set. -/
def selection (catalog : Catalog) (name : Text) (value : VariableValue) :
    Traced (Except EnvironmentError (Option Selection)) :=
  (ruleString name value).andThen fun rule? =>
    match rule? with
    | none => ⟨[], .ok none⟩
    | some rule =>
        let selected := Selection.ofRuleString catalog rule
        ⟨selected.events, (selected.value.map some).mapError .selection⟩

end Environment

end CipherRules
