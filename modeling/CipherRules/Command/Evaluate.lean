import CipherRules.Catalog.Builtin
import CipherRules.Command.Transcript

/-!
# Commands — Evaluating a rule string

Prints the suites that a rule string selects from the builtin catalog, a line each.  A rule string
that is not given is taken from the environment.
-/

namespace CipherRules.Command

/-- Prints the selection of a rule string under one kind of name. -/
def evaluateRule (rule : Text) (otherNames : Bool) : Transcript :=
  let selected := Selection.ofRuleString .builtin rule
  let events := opened :: selected.events
  match selected.value with
  | .error e =>
      ⟨[], events,
        [.failed (Text.of "Failed to evaluate cipher rule '" ++ rule ++ ['\'']), .selection e]⟩
  | .ok s => ⟨if otherNames then s.opensslNames else s.names, events, []⟩

/-- Prints the selection of a rule string, or else of the one in the environment. -/
def evaluate (setting : VariableValue) (rule? : Option Text) (otherNames : Bool) : Transcript :=
  match rule? with
  | some rule => evaluateRule rule otherNames
  | none =>
      let found := Environment.ruleString Environment.defaultVariable setting
      match found.value with
      | .error e => ⟨[], found.events, [.environment e]⟩
      | .ok none =>
          ⟨[], found.events, [.failed (Text.of "No rule string given and "
            ++ Environment.defaultVariable ++ Text.of " is not set")]⟩
      | .ok (some rule) => (evaluateRule rule otherNames).after found.events

end CipherRules.Command
