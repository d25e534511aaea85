import CipherRules.Catalog.Builtin
import CipherRules.Command.Transcript

/-!
# Commands — Explaining a rule string

Prints how each rule of a rule string is read, with the number of suites in the builtin catalog
that its predicate accepts, and how many suites are selected in the end.
-/

namespace CipherRules.Command

/-- The number of suites in the builtin catalog that a predicate accepts. -/
def acceptedCount (p : Predicate) : Nat := Catalog.builtin.suites.countP p.accepts

/-- A number of suites. -/
def suiteCount (n : Nat) : Text := Text.ofNat n ++ Text.of " suite(s)"

/-- The number of a rule and the rule, with its mark. -/
def numbered (mark : Text) (n : Nat) (rule : Text) : Text :=
  Text.of "  " ++ mark ++ [' '] ++ Text.alignRight 2 (Text.ofNat n) ++ Text.of ". " ++ rule

/-- The lines about a rule. -/
def explainRule (n : Nat) (r : Rule) : List Text :=
  if r.operation = .sortByStrength then [numbered goodMark n r.text]
  else
    let accepted := acceptedCount r.predicate
    let mark := if r.isVacuous || accepted == 0 then warningMark else goodMark
    (numbered mark n (Text.alignLeft 24 r.text) ++ [' '] ++ r.operation.label ++ Text.of ": "
        ++ r.predicate.description ++ Text.of " (" ++ suiteCount accepted ++ [')'])
      :: (if r.predicate.isAlwaysTrue then [Text.of "        matches every suite"]
          else if r.isVacuous then [Text.of "        matches no suite; skipped"]
          else [])

/-- The lines about rules that are counted from a number on. -/
def explainRules : Nat → List Rule → List Text
  | _, [] => []
  | n, r :: rest => explainRule n r ++ explainRules (n + 1) rest

/-- The line about the outcome. -/
def verdict : Except SelectionError Selection → Text
  | .ok s => goodMark ++ [' '] ++ suiteCount s.size ++ Text.of " selected"
  | .error e => badMark ++ [' '] ++ e.message

/-- Explains a rule string. -/
def explain (rule : Text) : Transcript :=
  let parsed := RuleString.parse .builtin rule
  match parsed.value with
  | .error e =>
      ⟨[], opened :: parsed.events,
        [.failed (Text.of "Invalid cipher rule '" ++ rule ++ ['\'']), .selection e]⟩
  | .ok rules =>
      let selected := Selection.ofRuleString .builtin rule
      ⟨(Text.of "Explaining rule: " ++ rule) :: explainRules 1 rules
          ++ [[], verdict selected.value],
        opened :: (parsed.events ++ selected.events), []⟩

end CipherRules.Command
