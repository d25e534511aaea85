import CipherRules.RuleString
import CipherRules.WorkingSet

/-!
# Selections

The outcome of rules: some suites of a catalog in order of preference, and the rules that had an
effect, written out.  `Selection.build` applies rules within the limits, leaves out those that
visibly change nothing, and refuses to end with no suite at all.  The report that it gives on the
way does not touch the outcome (`Selection.value_run`), which is read off the places that the rules
select (`Selection.value_build`).

Two selections count as equal when they name the same suites in the same order, whatever the
rules were.
-/

namespace CipherRules

/-- Suites in order of preference, and the rules that chose them. -/
structure Selection where
  /-- The suites, the first choice first. -/
  suites : List Suite
  /-- The effective rules, written out. -/
  rule : Text

namespace Selection

/-- The standard names, the first choice first. -/
def names (s : Selection) : List Text := s.suites.map (·.name)

/-- The other names, in the order of the suites. -/
def opensslNames (s : Selection) : List Text := s.suites.map (·.opensslName)

/-- The two lists are the pairs of names of the suites, taken apart. -/
theorem unzip_names (s : Selection) :
    (s.suites.map fun suite => (suite.name, suite.opensslName)).unzip =
      (s.names, s.opensslNames) := by
  simp [names, opensslNames, List.unzip_eq_map]

/-- The number of suites. -/
def size (s : Selection) : Nat := s.suites.length

/-- The standard names as a rule string. -/
def text (s : Selection) : Text := Text.join [RuleString.separator] s.names

instance : BEq Selection := ⟨fun s t => s.names == t.names⟩

/-- Whether a name, of either kind, is that of a selected suite. -/
def contains (s : Selection) (n : Text) : Bool := (s.names ++ s.opensslNames).contains n

/-- The standard names of the suites that are supported under either name. -/
def evaluate (s : Selection) (supported : List Text) : List Text :=
  (s.suites.filter fun suite =>
    supported.contains suite.name || supported.contains suite.opensslName).map (·.name)

/-! ### Building -/

/-- Refuses too many rules, then any predicate nested too deeply. -/
def checkLimits (rules : List Rule) : Except SelectionError Unit :=
  if Limits.rules < rules.length then .error (.tooManyRules rules.length)
  else forM rules fun r => r.predicate.checkDepth

/-- The rules that are not visibly without effect. -/
def effective (rules : List Rule) : List Rule := rules.filter fun r => !r.isVacuous

/-- Applies rules from a state on, leaving out those without effect, and reports each. -/
def run (catalog : Catalog) (w : WorkingSet) : List Rule → Traced WorkingSet
  | [] => ⟨[], w⟩
  | r :: rest =>
      if r.isVacuous then
        let end_ := run catalog w rest
        ⟨.skippedRule r.text :: end_.events, end_.value⟩
      else
        let next := w.apply catalog r
        let end_ := run catalog next rest
        ⟨.appliedRule r.text next.order.length :: end_.events, end_.value⟩

/-- The report aside, the rules with an effect are applied one after the other. -/
theorem value_run (catalog : Catalog) (w : WorkingSet) (rules : List Rule) :
    (run catalog w rules).value = w.applyAll catalog (effective rules) := by
  induction rules generalizing w with
  | nil => rfl
  | cons r rest ih =>
    by_cases h : r.isVacuous <;> simp [run, effective, h, ih, WorkingSet.applyAll]

/-- The selection of places, unless there is none. -/
def ofPlaces? (catalog : Catalog) (places : List Nat) (rules : List Rule) :
    Except SelectionError Selection :=
  let rule := Rule.listText (effective rules)
  if places.isEmpty then .error (.emptySelection rule)
  else .ok ⟨places.filterMap (catalog.suites[·]?), rule⟩

/-- The selection that rules make from a catalog. -/
def build (catalog : Catalog) (rules : List Rule) : Traced (Except SelectionError Selection) :=
  match checkLimits rules with
  | .error e => ⟨[], .error e⟩
  | .ok () =>
      let end_ := run catalog (.start catalog) rules
      ⟨end_.events, ofPlaces? catalog end_.value.order rules⟩

/-- The places that rules select, in order, without a report. -/
def placesOf (catalog : Catalog) (rules : List Rule) : Except SelectionError (List Nat) :=
  (checkLimits rules).map fun _ =>
    ((WorkingSet.start catalog).applyAll catalog (effective rules)).order

/-- The report aside, the outcome is the selection of these places. -/
theorem value_build (catalog : Catalog) (rules : List Rule) :
    (build catalog rules).value = (placesOf catalog rules).bind (ofPlaces? catalog · rules) := by
  rw [build, placesOf]
  cases checkLimits rules with
  | error e => rfl
  | ok _ => exact congrArg (fun w => ofPlaces? catalog w.order rules) (value_run catalog _ rules)

/-- The selection that a rule string makes from a catalog. -/
def ofRuleString (catalog : Catalog) (input : Text) : Traced (Except SelectionError Selection) :=
  (RuleString.parse catalog input).andThen (build catalog)

/-- The rule string of the default selection. -/
def defaultRuleString : Text := .of "DEFAULT"

/-- The default selection from a catalog. -/
def ofDefault (catalog : Catalog) : Traced (Except SelectionError Selection) :=
  ofRuleString catalog defaultRuleString

end Selection

end CipherRules
