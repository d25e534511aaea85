import CipherRules.Catalog.Builtin
import CipherRules.Proofs.Predicate.Folding
import CipherRules.Proofs.WorkingSet.Coherent
import Mathlib.Data.List.Forall2

/-!
# Working sets — Idle rules

A rule is idle in a catalog (`Rule.Idle`) when it neither keeps nor sorts and its class has no suite
of the catalog.  It hits no place, so it leaves a coherent working set as it is
(`Coherent.apply_of_idle`), and rules may be left out of a run or put into it as long as they are
idle (`Coherent.applyAll_filterMap_congr`).

A rule that is visibly without effect is idle in every catalog (`Rule.idle_of_isVacuous`): this is
what the soundness of constant folding means for a run (`constant_folding_sound`).

Two rules are alike in a catalog (`Rule.Alike`) when they do the same to the same suites of it,
however their classes are written.  They hit the same places and so have the same effect
(`applyAll_congr`).
-/

namespace CipherRules

/-- The rule neither keeps nor sorts, and no suite of the catalog is in its class. -/
structure Rule.Idle (catalog : Catalog) (r : Rule) : Prop where
  not_keepOnly : r.operation ≠ .keepOnly
  not_sortByStrength : r.operation ≠ .sortByStrength
  not_accepts : ∀ s ∈ catalog.suites, r.predicate.accepts s = false

/-- A rule that is visibly without effect is idle, whatever the catalog. -/
theorem Rule.idle_of_isVacuous {r : Rule} (h : r.isVacuous = true) (catalog : Catalog) :
    r.Idle catalog where
  not_keepOnly := (Rule.isVacuous_iff.1 h).2.1
  not_sortByStrength := (Rule.isVacuous_iff.1 h).1
  not_accepts s _ := Rule.not_accepts_of_isVacuous h s

/-- The two rules have the same operation, and their classes have the same suites of the catalog. -/
structure Rule.Alike (catalog : Catalog) (r q : Rule) : Prop where
  operation_eq : r.operation = q.operation
  accepts_eq : ∀ s ∈ catalog.suites, r.predicate.accepts s = q.predicate.accepts s

namespace WorkingSet

variable {catalog : Catalog} {w : WorkingSet}

/-- Rules that are alike have the same effect. -/
theorem apply_congr {r q : Rule} (h : r.Alike catalog q) :
    w.apply catalog r = w.apply catalog q := by
  have hhits : catalog.hits r.predicate = catalog.hits q.predicate :=
    List.map_congr_left h.accepts_eq
  rw [WorkingSet.apply, WorkingSet.apply, hhits, h.operation_eq]

/-- Rules that are alike one by one have the same effect in the end. -/
theorem applyAll_congr {rules others : List Rule}
    (h : List.Forall₂ (Rule.Alike catalog) rules others) :
    w.applyAll catalog rules = w.applyAll catalog others := by
  induction h generalizing w with
  | nil => rfl
  | cons halike _ ih =>
    show (w.apply catalog _).applyAll catalog _ = _
    rw [apply_congr halike]
    exact ih

/-- **An idle rule has no effect.**  No place is hit, so nothing is added, moved, excluded or
dropped. -/
theorem Coherent.apply_of_idle (h : Coherent catalog w) {r : Rule} (hr : r.Idle catalog) :
    w.apply catalog r = w := by
  have hl := catalog.length_hits r.predicate
  have hnone : ∀ i, flag (catalog.hits r.predicate) i = false :=
    Catalog.flag_hits_eq_false hr.not_accepts
  have hplaces : places (catalog.hits r.predicate) = [] := by
    simp [List.eq_nil_iff_forall_not_mem, hnone]
  refine (h.apply r).ext h ?_ fun i => ?_
  · unfold WorkingSet.apply
    cases hop : r.operation with
    | add => simp [order_add h hl, hplaces]
    | pushToEnd => simp [order_add h.moveToEnd hl, hplaces, order_moveToEnd_of_not_hit hnone]
    | remove => exact order_moveToEnd_of_not_hit hnone
    | delete => simp [order_delete h hl, hnone]
    | keepOnly => exact absurd hop hr.not_keepOnly
    | sortByStrength => exact absurd hop hr.not_sortByStrength
  · unfold WorkingSet.apply
    cases hop : r.operation with
    | delete => simp [flag_excluded_delete h hl, hnone]
    | _ => rfl

/-- Two readings of a list as rules have the same effect if the second one leaves out idle rules and
agrees with the first one otherwise. -/
theorem Coherent.applyAll_filterMap_congr {α : Type} {f g : α → Option Rule}
    (h : Coherent catalog w) {l : List α}
    (hfg : ∀ a ∈ l, f a = g a ∨ g a = none ∧ ∀ r ∈ f a, r.Idle catalog) :
    w.applyAll catalog (l.filterMap f) = w.applyAll catalog (l.filterMap g) := by
  induction l generalizing w with
  | nil => rfl
  | cons a rest ih =>
    have hrest := fun b hb => hfg b (List.mem_cons_of_mem a hb)
    rw [List.filterMap_cons, List.filterMap_cons]
    rcases hfg a List.mem_cons_self with heq | ⟨hnone, hidle⟩
    · rw [heq]
      cases g a with
      | none => exact ih h hrest
      | some r => exact ih (h.apply r) hrest
    · rw [hnone]
      cases hr : f a with
      | none => exact ih h hrest
      | some r =>
        show (w.apply catalog r).applyAll catalog (rest.filterMap f) = _
        rw [h.apply_of_idle (hidle r hr)]
        exact ih h hrest

/-- Leaving out the rules that are visibly without effect changes nothing. -/
theorem Coherent.applyAll_effective (h : Coherent catalog w) (rules : List Rule) :
    w.applyAll catalog (rules.filter fun r => !r.isVacuous) = w.applyAll catalog rules := by
  have hsome : w.applyAll catalog (rules.filterMap some) =
      w.applyAll catalog (rules.filterMap (Option.guard fun r => !r.isVacuous)) := by
    refine h.applyAll_filterMap_congr fun r _ => ?_
    cases hr : r.isVacuous with
    | false => exact Or.inl (by simp [Option.guard, hr])
    | true =>
      refine Or.inr ⟨by simp [Option.guard, hr], fun q hq => ?_⟩
      cases hq
      exact Rule.idle_of_isVacuous hr catalog
  rw [List.filterMap_eq_filter, List.filterMap_some] at hsome
  exact hsome.symm

/-! ### Constant folding -/

/-- **Constant folding is sound for every catalog.**  A predicate that visibly accepts every suite
accepts each, one that visibly accepts none accepts none, and no predicate is seen to do both.  So a
rule that is visibly without effect leaves every coherent working set as it is, and with it each one
that rules reach. -/
theorem constant_folding_sound :
    (∀ (p : Predicate) (s : Suite),
      (p.isAlwaysTrue = true → p.accepts s = true) ∧
      (p.isAlwaysFalse = true → p.accepts s = false)) ∧
    (∀ p : Predicate, ¬ (p.isAlwaysTrue = true ∧ p.isAlwaysFalse = true)) ∧
    (∀ (catalog : Catalog) (w : WorkingSet) (r : Rule), Coherent catalog w →
      r.isVacuous = true → w.apply catalog r = w) ∧
    (∀ (catalog : Catalog) (rules : List Rule) (r : Rule), r.isVacuous = true →
      (after catalog rules).apply catalog r = after catalog rules) := by
  refine ⟨fun p s => ⟨fun h => ?_, fun h => ?_⟩, Predicate.not_isAlwaysTrue_and_isAlwaysFalse,
    fun catalog w r hw hr => ?_, fun catalog rules r hr => ?_⟩
  · exact Predicate.accepts_of_isAlwaysTrue h s
  · exact Predicate.not_accepts_of_isAlwaysFalse h s
  · exact hw.apply_of_idle (Rule.idle_of_isVacuous hr catalog)
  · exact (coherent_after catalog rules).apply_of_idle (Rule.idle_of_isVacuous hr catalog)

/-- Each suite is export grade or is not, so nothing is deleted here. -/
theorem after_delete_neither_grade :
    (∀ s : Suite, (Predicate.condition (.exportGrade (.ofList [true, false]))).accepts s = true) ∧
    after Catalog.builtin [⟨.add, .always⟩,
        ⟨.delete, .not (.condition (.exportGrade (.ofList [true, false])))⟩] =
      after Catalog.builtin [⟨.add, .always⟩] := by
  obtain ⟨haccepts, -, hidle, -⟩ := constant_folding_sound
  have htrue : (Predicate.condition (.exportGrade (.ofList [true, false]))).isAlwaysTrue = true :=
    Predicate.isAlwaysTrue_iff.2 ⟨by decide, by decide⟩
  have hvacuous : (Rule.mk .delete
      (.not (.condition (.exportGrade (.ofList [true, false]))))).isVacuous = true :=
    Predicate.isAlwaysFalse_iff.2 ⟨by decide, by decide⟩
  have hw := coherent_after Catalog.builtin [⟨.add, .always⟩]
  exact ⟨fun s => (haccepts _ s).1 htrue, hidle Catalog.builtin _ _ hw hvacuous⟩

end WorkingSet

end CipherRules
