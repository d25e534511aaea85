import CipherRules.Proofs.Selection.Restriction
import CipherRules.Proofs.Selection.RuleString

/-!
# Selections — Single classes

What a class selects by itself: the suites that it accepts, in the order of the catalog
(`suites_after_add`).  A directive of a class, taken as a rule string of its own, therefore selects
the class, and nothing can be selected exactly if the class is empty
(`value_ofRuleString_directive`).  The classes of the rules of a rule string all have such
directives (`exists_directive_of_parse`).
-/

namespace CipherRules

open RuleString (Named parse writable_builtin)

namespace Selection

open WorkingSet (after)

variable {catalog : Catalog} {p : Predicate} {d : Text}

/-- A class that is added to nothing is selected as it is. -/
theorem suites_after_add (catalog : Catalog) (p : Predicate) :
    (after catalog [⟨.add, p⟩]).suites catalog = catalog.suites.filter p.accepts := by
  rw [WorkingSet.suites_after]
  simp [Choice.after, Choice.apply, Choice.add, Choice.start]

/-- A rule string that adds a single class has the outcome of the suites of the class. -/
theorem value_ofRuleString_of_add {input : Text}
    (hread : (parse catalog input).value = .ok [⟨.add, p⟩]) (htext : (Rule.mk .add p).text = d) :
    (ofRuleString catalog input).value =
      if catalog.suites.filter p.accepts = [] then .error (.emptySelection d)
      else .ok ⟨catalog.suites.filter p.accepts, d⟩ := by
  have hlist : Rule.listText [⟨.add, p⟩] = d := htext
  rw [value_ofRuleString_of_parse hread, hlist, suites_after_add]
  -- an order without places is one without suites
  refine if_congr ?_ rfl rfl
  rw [← suites_after_add, suites_after_eq_nil_iff]

/-- **A directive selects the class that it is the directive of.** -/
theorem value_ofRuleString_directive (hnamed : Named .builtin p) (h : p.directive? = some d)
    (hfew : (Text.pieces RuleString.termSeparator d).length ≤ Limits.termsPerToken) :
    (ofRuleString .builtin d).value =
      if Catalog.builtin.suites.filter p.accepts = [] then .error (.emptySelection d)
      else .ok ⟨Catalog.builtin.suites.filter p.accepts, d⟩ := by
  have hadd : Operation.add ≠ .sortByStrength := by decide
  exact value_ofRuleString_of_add (RuleString.value_parse_of_few hnamed h hfew)
    (RuleString.text_of_directive? hadd h)

end Selection

namespace RuleString

/-- Each rule of a rule string is the sorting, or its text is its sign and a directive of at most
sixteen words. -/
theorem exists_directive_of_parse {input : Text} {rules : List Rule}
    (h : (parse .builtin input).value = .ok rules) {r : Rule} (hr : r ∈ rules) :
    Named .builtin r.predicate ∧ ∃ d, r.predicate.directive? = some d ∧
      (Text.pieces termSeparator d).length ≤ Limits.termsPerToken := by
  obtain ⟨clause, hsound, hrule⟩ := (exists_resolve?_of_parse h).2 r hr
  exact exists_directive_of_resolve? writable_builtin hsound hrule

end RuleString

end CipherRules
