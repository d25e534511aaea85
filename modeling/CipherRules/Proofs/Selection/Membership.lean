import CipherRules.Catalog.Builtin
import CipherRules.Proofs.Catalog.Names
import CipherRules.Proofs.Selection.Outcome
import Mathlib.Data.List.Induction

/-!
# Selections — Membership

Which suites rules select, without a run.  Rules *admit* a suite (`Admits`) when none of them
deletes it, wherever it stands, and some rule adds it that no later rule undoes by keeping a class
without it.

* `mem_order_after_iff`: the places in the working set that rules reach are those of the suites
  they admit, and the excluded places those of the suites they delete.
* `selects_iff_admits`: a build within the limits selects exactly the suites that are admitted.
* `build_selects_admitted`: the outcome of every build, with its errors.

`Deletes`, `Gains` and so `Admits` are read from the last rule (`deletes_concat`, `gains_concat`):
this is the step of the induction over a run.
-/

namespace CipherRules.Selection

open WorkingSet (flag after)

/-- Some rule deletes the suite. -/
def Deletes (rules : List Rule) (s : Suite) : Prop :=
  ∃ r ∈ rules, r.operation = .delete ∧ r.predicate.accepts s = true

/-- Some rule adds the suite, and each later rule that keeps a class keeps the suite. -/
def Gains (rules : List Rule) (s : Suite) : Prop :=
  ∃ before r later, rules = before ++ r :: later ∧
    (r.operation = .add ∨ r.operation = .pushToEnd) ∧ r.predicate.accepts s = true ∧
    ∀ k ∈ later, k.operation = .keepOnly → k.predicate.accepts s = true

/-- No rule deletes the suite, and some rule adds it that no later one undoes. -/
def Admits (rules : List Rule) (s : Suite) : Prop := ¬ Deletes rules s ∧ Gains rules s

/-! ### The last rule -/

theorem deletes_concat {rules : List Rule} {r : Rule} {s : Suite} :
    Deletes (rules ++ [r]) s ↔
      Deletes rules s ∨ r.operation = .delete ∧ r.predicate.accepts s = true := by
  simp [Deletes, or_and_right, exists_or]

theorem gains_concat {rules : List Rule} {r : Rule} {s : Suite} :
    Gains (rules ++ [r]) s ↔
      (r.operation = .add ∨ r.operation = .pushToEnd) ∧ r.predicate.accepts s = true ∨
      Gains rules s ∧ (r.operation = .keepOnly → r.predicate.accepts s = true) := by
  constructor
  · rintro ⟨before, q, later, heq, hop, hq, hkeep⟩
    -- the rule that adds the suite is the last one, or stands before it
    rcases List.eq_nil_or_concat later with rfl | ⟨later, k, rfl⟩
    · obtain ⟨-, hr⟩ := List.append_inj' heq rfl
      obtain rfl := (List.cons.inj hr).1
      exact Or.inl ⟨hop, hq⟩
    · rw [List.concat_eq_append] at heq hkeep
      have hsplit : rules ++ [r] = (before ++ q :: later) ++ [k] := by simpa using heq
      obtain ⟨hrules, hr⟩ := List.append_inj' hsplit rfl
      obtain rfl := (List.cons.inj hr).1
      refine Or.inr ⟨⟨before, q, later, hrules, hop, hq, fun k hk => hkeep k ?_⟩, hkeep r ?_⟩
      · exact List.mem_append_left _ hk
      · exact List.mem_append_right _ (List.mem_singleton_self r)
  · rintro (⟨hop, hr⟩ | ⟨⟨before, q, later, rfl, hop, hq, hkeep⟩, hr⟩)
    · exact ⟨rules, r, [], rfl, hop, hr, fun k hk => absurd hk List.not_mem_nil⟩
    · refine ⟨before, q, later ++ [r], by simp, hop, hq, fun k hk => ?_⟩
      rcases List.mem_append.1 hk with hk | hk
      · exact hkeep k hk
      · exact List.mem_singleton.1 hk ▸ hr

/-- Rules that follow cannot tell two lists apart that delete and gain the same suite. -/
theorem admits_append_congr {rules others : List Rule} {s : Suite}
    (hd : Deletes rules s ↔ Deletes others s) (hg : Gains rules s ↔ Gains others s)
    (later : List Rule) : Admits (rules ++ later) s ↔ Admits (others ++ later) s := by
  have both : (Deletes (rules ++ later) s ↔ Deletes (others ++ later) s) ∧
      (Gains (rules ++ later) s ↔ Gains (others ++ later) s) := by
    induction later using List.reverseRecOn with
    | nil => simpa using ⟨hd, hg⟩
    | append_singleton later r ih =>
      rw [← List.append_assoc, ← List.append_assoc, deletes_concat, deletes_concat, gains_concat,
        gains_concat, ih.1, ih.2]
      exact ⟨Iff.rfl, Iff.rfl⟩
  exact and_congr (not_congr both.1) both.2

/-- A rule that neither adds nor drops a suite may be left out. -/
theorem admits_middle_of_inert {r : Rule}
    (h : r.operation = .remove ∨ r.operation = .sortByStrength) (before later : List Rule)
    (s : Suite) :
    Admits (before ++ r :: later) s ↔ Admits (before ++ later) s := by
  rw [List.append_cons]
  refine admits_append_congr ?_ ?_ later
  · rw [deletes_concat]
    rcases h with h | h <;> simp [h]
  · rw [gains_concat]
    rcases h with h | h <;> simp [h]

/-- Pushing a class to the end admits what adding it does. -/
theorem admits_middle_pushToEnd (before : List Rule) (p : Predicate) (later : List Rule)
    (s : Suite) : Admits (before ++ ⟨.pushToEnd, p⟩ :: later) s ↔
      Admits (before ++ ⟨.add, p⟩ :: later) s := by
  rw [List.append_cons, List.append_cons before ⟨.add, p⟩]
  refine admits_append_congr ?_ ?_ later
  · rw [deletes_concat, deletes_concat]
    simp
  · rw [gains_concat, gains_concat]
    simp

/-! ### The working set that rules reach -/

/-- **Membership in closed form.**  The excluded places are those of the suites that rules delete,
and the selected places those of the suites they admit. -/
theorem mem_order_after_iff {catalog : Catalog} {i : Nat} {s : Suite}
    (hs : catalog.suites[i]? = some s) (rules : List Rule) :
    (flag (after catalog rules).excluded i = true ↔ Deletes rules s) ∧
      (i ∈ (after catalog rules).order ↔ Admits rules s) := by
  induction rules using List.reverseRecOn with
  | nil => simp [after, WorkingSet.applyAll, WorkingSet.start, Deletes, Gains, Admits]
  | append_singleton rules r ih =>
    obtain ⟨hexcluded, horder⟩ := ih
    have hw := WorkingSet.coherent_after catalog rules
    have hfree : flag (after catalog rules).excluded i = false ↔ ¬ Deletes rules s := by
      rw [← hexcluded, Bool.not_eq_true]
    rw [WorkingSet.after_concat, WorkingSet.flag_excluded_apply hw r hs,
      WorkingSet.mem_order_apply hw r hs, Admits, deletes_concat, gains_concat]
    refine ⟨by simp [hexcluded], ?_⟩
    -- what is excluded at this point has been deleted before, which `hfree` says
    cases r.operation with
    | add | pushToEnd => simp [horder, hfree, Admits]; tauto
    | remove | sortByStrength => simp [horder, Admits]
    | delete => simp [horder, Admits]; tauto
    | keepOnly => simp [horder, Admits]; tauto

/-! ### The suites that are selected -/

theorem mem_suites_after {catalog : Catalog} {rules : List Rule} {s : Suite} :
    s ∈ (after catalog rules).suites catalog ↔ s ∈ catalog.suites ∧ Admits rules s := by
  simp only [WorkingSet.suites, List.mem_filterMap]
  constructor
  · rintro ⟨i, hi, hs⟩
    exact ⟨List.mem_of_getElem? hs, ((mem_order_after_iff hs rules).2).1 hi⟩
  · rintro ⟨hs, hadmits⟩
    obtain ⟨i, hi⟩ := List.getElem?_of_mem hs
    exact ⟨i, ((mem_order_after_iff hi rules).2).2 hadmits, hi⟩

/-- The selected suites have different names, since a name stands for one place. -/
theorem nodup_names_after (catalog : Catalog) (rules : List Rule) :
    (((after catalog rules).suites catalog).map (·.name)).Nodup := by
  refine List.pairwise_map.2 (List.pairwise_filterMap.2 ?_)
  refine (WorkingSet.coherent_after catalog rules).nodup.imp fun hne a ha b hb hab => ?_
  refine hne (Catalog.place_unique ha hb (n := a.name) List.mem_cons_self ?_)
  rw [hab]
  exact List.mem_cons_self

theorem mem_names_after {catalog : Catalog} {rules : List Rule} {n : Text} :
    n ∈ ((after catalog rules).suites catalog).map (·.name) ↔
      ∃ s ∈ catalog.suites, s.name = n ∧ Admits rules s := by
  simp only [List.mem_map, mem_suites_after]
  constructor
  · rintro ⟨s, ⟨hs, hadmits⟩, hn⟩
    exact ⟨s, hs, hn, hadmits⟩
  · rintro ⟨s, hs, hn, hadmits⟩
    exact ⟨s, ⟨hs, hadmits⟩, hn⟩

theorem order_after_eq_nil_iff {catalog : Catalog} {rules : List Rule} :
    (after catalog rules).order = [] ↔ ∀ s ∈ catalog.suites, ¬ Admits rules s := by
  constructor
  · intro hnil s hs hadmits
    obtain ⟨i, hi⟩ := List.getElem?_of_mem hs
    have hmem := ((mem_order_after_iff hi rules).2).2 hadmits
    rw [hnil] at hmem
    exact List.not_mem_nil hmem
  · intro hnone
    refine List.eq_nil_iff_forall_not_mem.2 fun i hi => ?_
    have hlt := (WorkingSet.coherent_after catalog rules).lt_size hi
    have hs : catalog.suites[i]? = some catalog.suites[i] := List.getElem?_eq_getElem hlt
    exact hnone _ (List.mem_of_getElem? hs) (((mem_order_after_iff hs rules).2).1 hi)

/-- The build succeeds and names the suite. -/
def Selects (catalog : Catalog) (rules : List Rule) (n : Text) : Prop :=
  ∃ selection, (build catalog rules).value = .ok selection ∧ n ∈ selection.names

/-- Within the limits the suites that are selected are those that are admitted. -/
theorem selects_iff_admits {catalog : Catalog} {rules : List Rule} (h : WithinLimits rules)
    {n : Text} :
    Selects catalog rules n ↔ ∃ s ∈ catalog.suites, s.name = n ∧ Admits rules s := by
  rw [← mem_names_after]
  by_cases hnil : (after catalog rules).order = []
  · simp [Selects, value_build_of_order_eq_nil h hnil, WorkingSet.suites, hnil]
  · simp [Selects, value_build_of_order_ne_nil h hnil, names]

/-- **The outcome of every build.**  Too many rules are refused, then a predicate that is nested
too deeply.  Within the limits the build names exactly the suites that rules admit, each once, and
fails if there is none.  So a rule that moves to the end or sorts changes no membership wherever
it stands, and pushing a class to the end selects what adding it does. -/
theorem build_selects_admitted (catalog : Catalog) :
    (∀ rules : List Rule, Limits.rules < rules.length →
      (build catalog rules).value = .error (.tooManyRules rules.length)) ∧
    (∀ rules : List Rule, rules.length ≤ Limits.rules →
      (∃ r ∈ rules, Limits.predicateDepth < r.predicate.height) →
      (build catalog rules).value = .error .predicateTooDeep) ∧
    (∀ rules : List Rule, WithinLimits rules →
      ((∀ s ∈ catalog.suites, ¬ Admits rules s) →
        ∃ text, (build catalog rules).value = .error (.emptySelection text)) ∧
      ((∃ s ∈ catalog.suites, Admits rules s) →
        ∃ selection, (build catalog rules).value = .ok selection ∧ selection.names.Nodup ∧
          ∀ n, n ∈ selection.names ↔ ∃ s ∈ catalog.suites, s.name = n ∧ Admits rules s)) ∧
    (∀ (before later : List Rule) (r : Rule),
      r.operation = .remove ∨ r.operation = .sortByStrength →
      WithinLimits (before ++ r :: later) →
      ∀ n, Selects catalog (before ++ r :: later) n ↔ Selects catalog (before ++ later) n) ∧
    (∀ (before later : List Rule) (p : Predicate),
      WithinLimits (before ++ ⟨.pushToEnd, p⟩ :: later) →
      ∀ n, Selects catalog (before ++ ⟨.pushToEnd, p⟩ :: later) n ↔
        Selects catalog (before ++ ⟨.add, p⟩ :: later) n) := by
  refine ⟨fun _ h => value_build_of_tooMany h, fun _ hl h => value_build_of_tooDeep hl h,
    fun rules h => ⟨fun hnone => ?_, fun hsome => ?_⟩, fun before later r hr h n => ?_,
    fun before later p h n => ?_⟩
  · exact ⟨_, value_build_of_order_eq_nil h (order_after_eq_nil_iff.2 hnone)⟩
  · obtain ⟨s, hs, hadmits⟩ := hsome
    have hne : (after catalog rules).order ≠ [] :=
      fun hnil => order_after_eq_nil_iff.1 hnil s hs hadmits
    exact ⟨_, value_build_of_order_ne_nil h hne, nodup_names_after catalog rules,
      fun _ => mem_names_after⟩
  · have h' : WithinLimits (before ++ later) :=
      h.sublist ((List.Sublist.refl before).append (List.sublist_cons_self r later))
    rw [selects_iff_admits h, selects_iff_admits h']
    simp only [admits_middle_of_inert hr]
  · have h' : WithinLimits (before ++ ⟨.add, p⟩ :: later) := h.of_map_predicate_eq (by simp)
    rw [selects_iff_admits h, selects_iff_admits h']
    simp only [admits_middle_pushToEnd]

/-- Every suite with a cipher: the build succeeds. -/
theorem build_selects_encrypted : ∃ selection,
    (build Catalog.builtin [⟨.add, .always⟩, ⟨.delete, .encryption [.null]⟩]).value =
      .ok selection ∧ selection.names.Nodup := by
  obtain ⟨s, hs, hcipher⟩ : ∃ s ∈ Catalog.builtin.suites,
      (Predicate.encryption [.null]).accepts s = false := by decide
  have hkept : ¬ Deletes [⟨.add, .always⟩, ⟨.delete, .encryption [.null]⟩] s := by
    simp [Deletes, hcipher]
  have hgained : Gains [⟨.add, .always⟩, ⟨.delete, .encryption [.null]⟩] s :=
    ⟨[], ⟨.add, .always⟩, [⟨.delete, .encryption [.null]⟩], rfl, Or.inl rfl, rfl, by simp⟩
  obtain ⟨-, -, hwithin, -⟩ := build_selects_admitted Catalog.builtin
  obtain ⟨selection, hbuild, hnodup, -⟩ :=
    (hwithin [⟨.add, .always⟩, ⟨.delete, .encryption [.null]⟩] ⟨by decide, by decide⟩).2
      ⟨s, hs, hkept, hgained⟩
  exact ⟨selection, hbuild, hnodup⟩

end CipherRules.Selection
