import CipherRules.Selection

/-!
# Selections — Builders

A builder collects rules for a catalog, from lists and from rule strings, and applies them only in
the end.  A selection from a rule string is one whose builder has been given nothing else
(`ofRuleString_eq_builder`).
-/

namespace CipherRules.Selection

/-- Rules for a catalog, in the order in which they were given. -/
structure Builder where
  catalog : Catalog
  rules : List Rule

namespace Builder

/-- A builder without rules. -/
def empty (catalog : Catalog) : Builder := ⟨catalog, []⟩

/-- Gives the builder more rules. -/
def append (b : Builder) (more : List Rule) : Builder := { b with rules := b.rules ++ more }

/-- Gives the builder the rules of a rule string. -/
def parse (b : Builder) (input : Text) : Traced (Except SelectionError Builder) :=
  (RuleString.parse b.catalog input).andThen fun rules => ⟨[], .ok (b.append rules)⟩

/-- The selection that the rules of the builder make. -/
def build (b : Builder) : Traced (Except SelectionError Selection) :=
  Selection.build b.catalog b.rules

/-- A builder that reads a rule string has its rules behind its own. -/
theorem parse_of_ok {b : Builder} {input : Text} {rules : List Rule}
    (h : (RuleString.parse b.catalog input).value = .ok rules) :
    b.parse input = ⟨(RuleString.parse b.catalog input).events, .ok (b.append rules)⟩ := by
  rw [parse, Traced.andThen_of_ok h, List.append_nil]

theorem parse_of_error {b : Builder} {input : Text} {e : SelectionError}
    (h : (RuleString.parse b.catalog input).value = .error e) :
    b.parse input = ⟨(RuleString.parse b.catalog input).events, .error e⟩ := by
  rw [parse, Traced.andThen_of_error h]

end Builder

/-- A selection from a rule string is one from a builder that has been given it. -/
theorem ofRuleString_eq_builder (catalog : Catalog) (input : Text) :
    ofRuleString catalog input = ((Builder.empty catalog).parse input).andThen Builder.build := by
  rw [ofRuleString]
  cases h : (RuleString.parse catalog input).value with
  | error e =>
    rw [Builder.parse_of_error (b := .empty catalog) h, Traced.andThen_of_error h]
    rfl
  | ok rules =>
    rw [Builder.parse_of_ok (b := .empty catalog) h, Traced.andThen_of_ok h]
    rfl

end CipherRules.Selection
