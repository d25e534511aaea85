import CipherRules.Proofs.RuleString.Part
import CipherRules.Proofs.Selection.Alignment
import CipherRules.Proofs.Selection.Deletion
import CipherRules.Proofs.WorkingSet.Choice

/-!
# Selections — Restricted to supported suites

Selecting from the supported part of a catalog is selecting from the catalog and leaving out what is
not supported (`build_supported`): of rules within the limits, and of a rule string that is read
against each of the two.

The rules of a rule string may differ in the two readings.  They have the same effect in the part
(`RuleString.after_parse_part`), and rules commute with leaving suites out (`suites_after_part`), so
`restrictsTo_of_suites` applies to both.
-/

namespace CipherRules

/-- True of the suites that are supported under either name. -/
def Suite.isSupported (supported : List Text) (s : Suite) : Bool :=
  supported.contains s.name || supported.contains s.opensslName

/-- The supported suites of a catalog. -/
abbrev Catalog.supportedPart (catalog : Catalog) (supported : List Text) : Catalog :=
  catalog.part (Suite.isSupported supported)

namespace Selection

open RuleString (parse KeepsFound)
open WorkingSet (after)

variable {catalog : Catalog} {supported : List Text} {rules others : List Rule}

/-- The second outcome is the first one without the suites that are not supported: it names those
that are left, and fails for want of a suite if none is. -/
inductive RestrictsTo (supported : List Text) :
    Except SelectionError Selection → Except SelectionError Selection → Prop where
  | selected {a b : Selection} (hne : a.evaluate supported ≠ [])
      (h : b.names = a.evaluate supported) : RestrictsTo supported (.ok a) (.ok b)
  | none {a : Selection} (h : a.evaluate supported = []) (rule : Text) :
      RestrictsTo supported (.ok a) (.error (.emptySelection rule))
  | empty (rule rule' : Text) :
      RestrictsTo supported (.error (.emptySelection rule)) (.error (.emptySelection rule'))

/-- In a part of a catalog rules select what they select in the catalog, without the suites that the
part does not have. -/
theorem suites_after_part (catalog : Catalog) (keep : Suite → Bool) (rules : List Rule) :
    (after (catalog.part keep) rules).suites (catalog.part keep) =
      ((after catalog rules).suites catalog).filter keep := by
  have hfilter := congrArg Choice.chosen (Choice.after_filter keep catalog.suites rules)
  rw [WorkingSet.suites_after, WorkingSet.suites_after]
  exact hfilter

theorem suites_after_eq_nil_iff :
    (after catalog rules).suites catalog = [] ↔ (after catalog rules).order = [] := by
  have hlen := (WorkingSet.coherent_after catalog rules).length_suites
  rw [← List.length_eq_zero_iff, ← List.length_eq_zero_iff, hlen]

/-- Rules that select in the part what others select in the catalog, as far as it is supported, have
the outcome of the others restricted. -/
theorem restrictsTo_of_suites (h : WithinLimits rules) (h' : WithinLimits others)
    (hsuites : (after (catalog.supportedPart supported) others).suites
        (catalog.supportedPart supported) =
      ((after catalog rules).suites catalog).filter (Suite.isSupported supported)) :
    RestrictsTo supported (build catalog rules).value
      (build (catalog.supportedPart supported) others).value := by
  by_cases hnil : (after catalog rules).order = []
  · rw [suites_after_eq_nil_iff.2 hnil] at hsuites
    have hnil' := suites_after_eq_nil_iff.1 hsuites
    rw [value_build_of_order_eq_nil h hnil, value_build_of_order_eq_nil h' hnil']
    exact .empty _ _
  · rw [value_build_of_order_ne_nil h hnil]
    by_cases hnil' : (after (catalog.supportedPart supported) others).order = []
    · rw [value_build_of_order_eq_nil h' hnil']
      rw [suites_after_eq_nil_iff.2 hnil'] at hsuites
      refine .none ?_ _
      exact congrArg (List.map Suite.name) hsuites.symm
    · rw [value_build_of_order_ne_nil h' hnil']
      have hnames := congrArg (List.map Suite.name) hsuites
      refine .selected (fun hno => ?_) hnames
      have hempty := List.map_eq_nil_iff.1 (hnames.trans hno)
      exact hnil' (suites_after_eq_nil_iff.1 hempty)

/-- **Restricting the catalog is restricting the selection.**  The supported suites are a catalog.
Rules within the limits name, in this catalog, the suites that they name in the whole one as far as
they are supported, in the same order, and fail if there is none.  So does a rule string that can be
read, if it is read against each catalog and each suite that it keeps by name is found in the part
if at all. -/
theorem build_supported (catalog : Catalog) (supported : List Text) :
    Catalog.ofSuites? (catalog.suites.filter (Suite.isSupported supported)) =
      .ok (catalog.supportedPart supported) ∧
    (∀ rules : List Rule, WithinLimits rules →
      RestrictsTo supported (build catalog rules).value
        (build (catalog.supportedPart supported) rules).value) ∧
    (∀ (input : Text) (rules : List Rule), (parse catalog input).value = .ok rules →
      KeepsFound catalog (catalog.supportedPart supported) input →
      RestrictsTo supported (ofRuleString catalog input).value
        (ofRuleString (catalog.supportedPart supported) input).value) := by
  refine ⟨Catalog.ofSuites?_part catalog _, fun rules h => ?_, fun input rules h hkept => ?_⟩
  · exact restrictsTo_of_suites h h (suites_after_part catalog _ rules)
  · obtain ⟨others, h', hafter⟩ := RuleString.after_parse_part h hkept
    rw [value_ofRuleString_of_ok h, value_ofRuleString_of_ok h']
    refine restrictsTo_of_suites (withinLimits_of_parse h) (withinLimits_of_parse h') ?_
    rw [← hafter]
    exact suites_after_part catalog _ rules

/-- A part without the suite that is kept ignores the rule, and so selects the other one. -/
example : (ofRuleString (Catalog.builtin.supportedPart [.of "RC4-SHA"])
    (.of "RSA:&AES128-SHA")).value.toOption.map names =
      some [.of "TLS_RSA_WITH_RC4_128_SHA"] := by decide +kernel

/-- Two suites are supported, one under each name.  The suite that is deleted by name is not in the
part, and the one that is kept by name is. -/
theorem build_supported_pair : ∃ selection,
    (ofRuleString
      (Catalog.builtin.supportedPart [.of "AES128-SHA", .of "TLS_RSA_WITH_AES_256_CBC_SHA"])
      (.of "RSA:!RC4-SHA:&AES128-SHA")).value = .ok selection ∧
    selection.names = [.of "TLS_RSA_WITH_AES_128_CBC_SHA"] := by
  obtain ⟨-, -, hrestrict⟩ := build_supported Catalog.builtin
    [.of "AES128-SHA", .of "TLS_RSA_WITH_AES_256_CBC_SHA"]
  have hparse : (parse Catalog.builtin (.of "RSA:!RC4-SHA:&AES128-SHA")).value = .ok
      [⟨.add, .keyExchange [.rsa]⟩, ⟨.delete, .name [.of "TLS_RSA_WITH_RC4_128_SHA"]⟩,
        ⟨.keepOnly, .name [.of "TLS_RSA_WITH_AES_128_CBC_SHA"]⟩] := rfl
  have houtcome := hrestrict _ _ hparse (by decide +kernel)
  rw [value_ofRuleString_of_ok hparse, value_build_of_order_ne_nil
    ⟨by decide, by decide⟩ (by decide +kernel)] at houtcome
  generalize (ofRuleString (Catalog.builtin.supportedPart _) _).value = outcome at houtcome ⊢
  cases houtcome with
  | selected _ h => exact ⟨_, rfl, h.trans (by decide +kernel)⟩
  | none h => exact absurd h (by decide +kernel)

end Selection

end CipherRules
