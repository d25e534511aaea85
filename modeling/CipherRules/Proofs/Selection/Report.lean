import CipherRules.Catalog.Builtin
import CipherRules.Proofs.Selection.Alignment

/-!
# Selections — The report of a build

A build leaves out the rules that visibly have no effect, and reports each rule.  Its outcome does
not show what was left out.

* `run_cons`: the step.  Left out or applied, a rule is reported once, and the run goes on from the
  state that the rule leaves.
* `events_run_append`, `getElem?_events_run`: so each rule has its report at its place among the
  rules.
* `build_leaves_out_idle`: the rules that are left out could as well be applied, or not be there,
  and each of the others is reported with the size of the selection that the rules up to it make.
-/

namespace CipherRules.Selection

open WorkingSet (after Coherent coherent_start coherent_after)

variable {catalog : Catalog} {w : WorkingSet} {rules : List Rule}

/-- What a run reports of a rule. -/
def report (catalog : Catalog) (w : WorkingSet) (r : Rule) : Event :=
  if r.isVacuous then .skippedRule r.text
  else .appliedRule r.text (w.apply catalog r).order.length

/-- **One step of a run.**  Left out or applied, the rule is reported, and the run goes on from the
state that the rule leaves. -/
theorem run_cons (h : Coherent catalog w) (r : Rule) (rest : List Rule) :
    run catalog w (r :: rest) =
      ⟨report catalog w r :: (run catalog (w.apply catalog r) rest).events,
        (run catalog (w.apply catalog r) rest).value⟩ := by
  cases hr : r.isVacuous with
  | true =>
    rw [h.apply_of_idle (Rule.idle_of_isVacuous hr catalog)]
    simp [run, report, hr]
  | false => simp [run, report, hr]

/-- A run ends where all rules lead. -/
theorem value_run_eq (h : Coherent catalog w) (rules : List Rule) :
    (run catalog w rules).value = w.applyAll catalog rules := by
  rw [value_run]
  exact h.applyAll_effective rules

/-- Each rule is reported once. -/
theorem length_events_run (h : Coherent catalog w) (rules : List Rule) :
    (run catalog w rules).events.length = rules.length := by
  induction rules generalizing w with
  | nil => rfl
  | cons r rest ih => rw [run_cons h, List.length_cons, ih (h.apply r), List.length_cons]

/-- The reports of rules and further rules. -/
theorem events_run_append (h : Coherent catalog w) (before later : List Rule) :
    (run catalog w (before ++ later)).events = (run catalog w before).events ++
      (run catalog (w.applyAll catalog before) later).events := by
  induction before generalizing w with
  | nil => rfl
  | cons r rest ih =>
    rw [List.cons_append, run_cons h, run_cons h, ih (h.apply r)]
    rfl

/-- The report of a rule among others. -/
theorem getElem?_events_run (h : Coherent catalog w) (before later : List Rule) (r : Rule) :
    (run catalog w (before ++ r :: later)).events[before.length]? =
      some (report catalog (w.applyAll catalog before) r) := by
  rw [events_run_append h, ← length_events_run h before, List.getElem?_append_right (Nat.le_refl _),
    Nat.sub_self, run_cons (h.applyAll before)]
  rfl

/-! ### Numbers of suites -/

/-- How many suites an outcome selects: none if it is refused for being empty. -/
inductive Counts : Except SelectionError Selection → Nat → Prop where
  | selected (s : Selection) : Counts (.ok s) s.size
  | empty (rule : Text) : Counts (.error (.emptySelection rule)) 0

/-- Within the limits an outcome selects as many suites as there are places in the order. -/
theorem counts_build (catalog : Catalog) (h : WithinLimits rules) :
    Counts (build catalog rules).value (after catalog rules).order.length := by
  by_cases hnil : (after catalog rules).order = []
  · rw [value_build_of_order_eq_nil h hnil, hnil]
    exact .empty _
  · rw [value_build_of_order_ne_nil h hnil, ← (coherent_after catalog rules).length_suites]
    exact .selected _

theorem events_build (catalog : Catalog) (h : WithinLimits rules) :
    (build catalog rules).events = (run catalog (.start catalog) rules).events := by
  rw [build, checkLimits_of_within h]

/-- Rules have the outcome of those among them that are not visibly without effect. -/
theorem value_build_effective (catalog : Catalog) (h : WithinLimits rules) :
    (build catalog (effective rules)).value = (build catalog rules).value := by
  have hafter : after catalog (effective rules) = after catalog rules :=
    (coherent_start catalog).applyAll_effective rules
  have htwice : effective (effective rules) = effective rules := by
    simp [effective]
  have hlimits : WithinLimits (effective rules) := h.sublist List.filter_sublist
  rw [value_build_of_within hlimits, value_build_of_within h, hafter, ofPlaces?, ofPlaces?,
    htwice]

/-- **Leaving out rules without effect is not to be seen.**  Within the limits the build ends where
all rules lead, one after the other, and has the outcome that it has without those left out.  A rule
that is applied is reported with the number of suites that the rules up to it select. -/
theorem build_leaves_out_idle (catalog : Catalog) (h : WithinLimits rules) :
    (run catalog (.start catalog) rules).value =
        rules.foldl (fun w r => w.apply catalog r) (.start catalog) ∧
      (build catalog rules).value = (build catalog (rules.filter fun r => !r.isVacuous)).value ∧
      ∀ before r later, rules = before ++ r :: later →
        (r.isVacuous = true →
          (build catalog rules).events[before.length]? = some (.skippedRule r.text)) ∧
        (r.isVacuous = false → ∃ n,
          (build catalog rules).events[before.length]? = some (.appliedRule r.text n) ∧
          Counts (build catalog (before ++ [r])).value n) := by
  refine ⟨value_run_eq (coherent_start catalog) rules, (value_build_effective catalog h).symm, ?_⟩
  rintro before r later rfl
  have hprefix : WithinLimits (before ++ [r]) := h.sublist (by simp)
  have hevent : (build catalog (before ++ r :: later)).events[before.length]? =
      some (report catalog (after catalog before) r) := by
    rw [events_build catalog h]
    exact getElem?_events_run (coherent_start catalog) before later r
  rw [hevent]
  constructor
  · intro hr
    rw [report, if_pos hr]
  · intro hr
    refine ⟨(after catalog (before ++ [r])).order.length, ?_, counts_build catalog hprefix⟩
    rw [report, if_neg (by simp [hr]), WorkingSet.after_concat]

/-- A deletion of nothing is left out in front of a sort that finds no suite and an addition. -/
theorem build_leaves_out_idle_deletion :
    (build Catalog.builtin
        [⟨.delete, .not .always⟩, .sortByStrength, ⟨.add, .exportGrade true⟩]).value =
      (build Catalog.builtin [.sortByStrength, ⟨.add, .exportGrade true⟩]).value ∧
    (build Catalog.builtin
        [⟨.delete, .not .always⟩, .sortByStrength, ⟨.add, .exportGrade true⟩]).events[1]? =
      some (.appliedRule (.of "@STRENGTH") 0) := by
  have hlimits : WithinLimits
      [⟨.delete, .not .always⟩, .sortByStrength, ⟨.add, .exportGrade true⟩] :=
    ⟨by decide, by decide⟩
  have heffective : [⟨.delete, .not .always⟩, .sortByStrength, ⟨.add, .exportGrade true⟩].filter
      (fun r => !Rule.isVacuous r) = [.sortByStrength, ⟨.add, .exportGrade true⟩] := by
    decide +kernel
  obtain ⟨-, hvalue, hevents⟩ := build_leaves_out_idle Catalog.builtin hlimits
  obtain ⟨n, hevent, hcounts⟩ := (hevents [⟨.delete, .not .always⟩] _ _ rfl).2 rfl
  -- so far nothing is selected
  have hnil : (after Catalog.builtin [⟨.delete, .not .always⟩, .sortByStrength]).order = [] := by
    decide +kernel
  rw [List.singleton_append,
    value_build_of_order_eq_nil (hlimits.sublist (by simp)) hnil] at hcounts
  cases hcounts
  rw [heffective] at hvalue
  exact ⟨hvalue, hevent⟩

end CipherRules.Selection
