import CipherRules.Selection
import CipherRules.Proofs.WorkingSet.Idle

/-!
# Selections — The outcome of a build

What `Selection.build` returns, read off the rules and the working set that they reach.

* `value_build_of_tooMany`, `value_build_of_tooDeep`: too many rules are refused, then a predicate
  that is nested too deeply.
* `placesOf_of_within`, `value_build_of_within`: within the limits the places, and with them the
  outcome, are read off `WorkingSet.after`.  The rules that the build leaves out make no difference
  to it.
* `value_build_eq_ok_iff`: when a build succeeds, and with what.
* `SameChoice`: two outcomes with the same suites in the same order, or both without any.  Rules
  that reach the same order have the same choice (`sameChoice_of_order_eq`).
-/

namespace CipherRules

namespace Selection

/-- Rules that a build does not refuse: not too many, and none nested too deeply. -/
structure WithinLimits (rules : List Rule) : Prop where
  length_le : rules.length ≤ Limits.rules
  height_le : ∀ r ∈ rules, r.predicate.height ≤ Limits.predicateDepth

namespace WithinLimits

variable {rules others : List Rule}

theorem sublist (h : WithinLimits rules) (hs : others.Sublist rules) : WithinLimits others where
  length_le := Nat.le_trans hs.length_le h.length_le
  height_le r hr := h.height_le r (hs.subset hr)

theorem perm (h : WithinLimits rules) (hp : others.Perm rules) : WithinLimits others where
  length_le := hp.length_eq ▸ h.length_le
  height_le r hr := h.height_le r (hp.subset hr)

/-- The limits look at the predicates alone. -/
theorem of_map_predicate_eq (h : WithinLimits rules)
    (heq : others.map (·.predicate) = rules.map (·.predicate)) : WithinLimits others where
  length_le := by
    have hl := congrArg List.length heq
    simp only [List.length_map] at hl
    exact hl ▸ h.length_le
  height_le r hr := by
    have hmem : r.predicate ∈ rules.map (·.predicate) := heq ▸ List.mem_map_of_mem hr
    obtain ⟨q, hq, hqr⟩ := List.mem_map.1 hmem
    exact hqr ▸ h.height_le q hq

end WithinLimits

/-- Rule by rule, the check of the depth fails if a predicate is too deep. -/
theorem forM_checkDepth (rules : List Rule) :
    forM rules (fun r : Rule => r.predicate.checkDepth) =
      if rules.all (·.predicate.withinDepth) then Except.ok () else .error .predicateTooDeep := by
  induction rules with
  | nil => rfl
  | cons r rest ih =>
    rw [List.all_cons, List.forM_cons, Predicate.checkDepth]
    cases hr : r.predicate.withinDepth with
    | true => exact ih
    | false => rfl

theorem checkLimits_of_within {rules : List Rule} (h : WithinLimits rules) :
    checkLimits rules = .ok () := by
  have hdepth : rules.all (·.predicate.withinDepth) = true :=
    List.all_eq_true.2 fun r hr => Predicate.withinDepth_iff.2 (h.height_le r hr)
  rw [checkLimits, if_neg (Nat.not_lt.2 h.length_le), forM_checkDepth, if_pos hdepth]

theorem checkLimits_of_tooDeep {rules : List Rule} (hl : rules.length ≤ Limits.rules)
    (h : ∃ r ∈ rules, Limits.predicateDepth < r.predicate.height) :
    checkLimits rules = .error .predicateTooDeep := by
  obtain ⟨r, hr, hdeep⟩ := h
  have hdepth : ¬ rules.all (·.predicate.withinDepth) = true := by
    intro hall
    have hle := Predicate.withinDepth_iff.1 (List.all_eq_true.1 hall r hr)
    exact Nat.not_le.2 hdeep hle
  rw [checkLimits, if_neg (Nat.not_lt.2 hl), forM_checkDepth, if_neg hdepth]

variable {catalog : Catalog} {rules : List Rule}

theorem value_build_of_error {e : SelectionError} (h : checkLimits rules = .error e) :
    (build catalog rules).value = .error e := by
  rw [value_build, placesOf, h]
  rfl

/-- Too many rules are refused before anything else. -/
theorem value_build_of_tooMany (h : Limits.rules < rules.length) :
    (build catalog rules).value = .error (.tooManyRules rules.length) :=
  value_build_of_error (by rw [checkLimits, if_pos h])

/-- A predicate that is nested too deeply is refused, whatever its rule does. -/
theorem value_build_of_tooDeep (hl : rules.length ≤ Limits.rules)
    (h : ∃ r ∈ rules, Limits.predicateDepth < r.predicate.height) :
    (build catalog rules).value = .error .predicateTooDeep :=
  value_build_of_error (checkLimits_of_tooDeep hl h)

/-- Within the limits the rules select the places of the working set that all of them reach. -/
theorem placesOf_of_within (h : WithinLimits rules) :
    placesOf catalog rules = .ok (WorkingSet.after catalog rules).order := by
  have heffective : (WorkingSet.start catalog).applyAll catalog (effective rules) =
      .after catalog rules := (WorkingSet.coherent_start catalog).applyAll_effective rules
  rw [placesOf, checkLimits_of_within h, heffective]
  rfl

/-- Within the limits the outcome is read off the working set that all rules reach. -/
theorem value_build_of_within (h : WithinLimits rules) :
    (build catalog rules).value =
      ofPlaces? catalog (WorkingSet.after catalog rules).order rules := by
  rw [value_build, placesOf_of_within h]
  rfl

theorem value_build_of_order_eq_nil (h : WithinLimits rules)
    (hnil : (WorkingSet.after catalog rules).order = []) :
    (build catalog rules).value = .error (.emptySelection (Rule.listText (effective rules))) := by
  rw [value_build_of_within h, ofPlaces?, hnil]
  rfl

theorem value_build_of_order_ne_nil (h : WithinLimits rules)
    (hne : (WorkingSet.after catalog rules).order ≠ []) :
    (build catalog rules).value = .ok ⟨(WorkingSet.after catalog rules).suites catalog,
      Rule.listText (effective rules)⟩ := by
  have hempty : ¬ (WorkingSet.after catalog rules).order.isEmpty = true :=
    fun he => hne (List.isEmpty_iff.1 he)
  rw [value_build_of_within h, ofPlaces?, if_neg hempty]
  rfl

/-- Rules that are not within the limits are refused as such. -/
theorem value_build_of_not_within (catalog : Catalog) (h : ¬ WithinLimits rules) :
    (build catalog rules).value = .error (.tooManyRules rules.length) ∨
      (build catalog rules).value = .error .predicateTooDeep := by
  by_cases hl : rules.length ≤ Limits.rules
  · refine Or.inr (value_build_of_tooDeep hl (Classical.byContradiction fun hnone => ?_))
    exact h ⟨hl, fun r hr => Nat.le_of_not_lt fun hdeep => hnone ⟨r, hr, hdeep⟩⟩
  · exact Or.inl (value_build_of_tooMany (Nat.lt_of_not_le hl))

/-- A build succeeds exactly if the rules are within the limits and leave a suite selected. -/
theorem value_build_eq_ok_iff {selection : Selection} :
    (build catalog rules).value = .ok selection ↔
      WithinLimits rules ∧ (WorkingSet.after catalog rules).order ≠ [] ∧
        selection = ⟨(WorkingSet.after catalog rules).suites catalog,
          Rule.listText (effective rules)⟩ := by
  constructor
  · intro h
    by_cases hlimits : WithinLimits rules
    · by_cases hnil : (WorkingSet.after catalog rules).order = []
      · rw [value_build_of_order_eq_nil hlimits hnil] at h
        cases h
      · rw [value_build_of_order_ne_nil hlimits hnil] at h
        exact ⟨hlimits, hnil, (Except.ok.inj h).symm⟩
    · rcases value_build_of_not_within catalog hlimits with he | he <;>
        rw [he] at h <;> cases h
  · rintro ⟨hlimits, hne, rfl⟩
    exact value_build_of_order_ne_nil hlimits hne

/-! ### Outcomes with the same choice -/

/-- Both outcomes name the same suites in the same order, or both name none. -/
inductive SameChoice :
    Except SelectionError Selection → Except SelectionError Selection → Prop where
  | selected {a b : Selection} (h : a.names = b.names) : SameChoice (.ok a) (.ok b)
  | empty (rule rule' : Text) :
      SameChoice (.error (.emptySelection rule)) (.error (.emptySelection rule'))

/-- Rules that reach the same order have the same choice. -/
theorem sameChoice_of_order_eq {others : List Rule} (h : WithinLimits rules)
    (h' : WithinLimits others)
    (order : (WorkingSet.after catalog rules).order = (WorkingSet.after catalog others).order) :
    SameChoice (build catalog rules).value (build catalog others).value := by
  by_cases hnil : (WorkingSet.after catalog rules).order = []
  · rw [value_build_of_order_eq_nil h hnil, value_build_of_order_eq_nil h' (order ▸ hnil)]
    exact .empty _ _
  · rw [value_build_of_order_ne_nil h hnil, value_build_of_order_ne_nil h' (order ▸ hnil)]
    refine .selected ?_
    rw [names, names, WorkingSet.suites, WorkingSet.suites, order]

end Selection

end CipherRules
