import CipherRules.Catalog.Builtin
import CipherRules.Proofs.Selection.Outcome
import CipherRules.Proofs.WorkingSet.Access
import Mathlib.Data.List.Perm.Subperm

/-!
# Selections — Working sets and selections keep in step

What every working set that rules reach has in common, and what this means for the selection that is
made of it.

* `map_getElem?_order`: each place of the order holds a suite, so making a selection drops none.
* `flag_excluded_applyAll`: an exclusion is for good.
* `after_in_step`: the flags fit the order throughout, no access to them fails, and the two lists of
  names of a selection run side by side.
-/

namespace CipherRules

namespace WorkingSet

variable {catalog : Catalog} {w : WorkingSet}

/-- Each place of the order holds a suite. -/
theorem Coherent.map_getElem?_order (h : Coherent catalog w) :
    w.order.map (catalog.suites[·]?) = (w.suites catalog).map some := by
  have hall : ∀ i ∈ w.order, i < catalog.suites.length := fun i hi => h.lt_size hi
  unfold suites
  generalize w.order = order at hall ⊢
  induction order with
  | nil => rfl
  | cons i rest ih =>
    obtain ⟨s, hi⟩ : ∃ s, catalog.suites[i]? = some s :=
      ⟨_, List.getElem?_eq_getElem (hall i List.mem_cons_self)⟩
    rw [List.map_cons, ih fun j hj => hall j (List.mem_cons_of_mem i hj), List.filterMap_cons, hi]
    rfl

theorem Coherent.length_suites (h : Coherent catalog w) :
    (w.suites catalog).length = w.order.length := by
  have hlen := congrArg List.length h.map_getElem?_order
  simpa using hlen.symm

/-- There are no more places in the order than in the catalog. -/
theorem Coherent.length_order_le (h : Coherent catalog w) : w.order.length ≤ catalog.size := by
  have hsub : w.order ⊆ List.range catalog.size := fun i hi => List.mem_range.2 (h.lt_size hi)
  have hle := (List.subperm_of_subset h.nodup hsub).length_le
  rwa [List.length_range] at hle

/-- No rule takes an exclusion back. -/
theorem Coherent.flag_excluded_of_apply (h : Coherent catalog w) (r : Rule) {i : Nat}
    (hi : flag w.excluded i = true) : flag (w.apply catalog r).excluded i = true := by
  have hlt : i < catalog.suites.length := by
    rw [← Catalog.size, ← h.length_excluded]
    exact lt_length_of_flag hi
  rw [flag_excluded_apply h r (List.getElem?_eq_getElem hlt), hi, Bool.true_or]

/-- An exclusion is for good. -/
theorem Coherent.flag_excluded_applyAll (h : Coherent catalog w) (rules : List Rule) {i : Nat}
    (hi : flag w.excluded i = true) : flag (w.applyAll catalog rules).excluded i = true := by
  induction rules generalizing w with
  | nil => exact hi
  | cons r rest ih => exact ih (h.apply r) (h.flag_excluded_of_apply r hi)

end WorkingSet

namespace Selection

open WorkingSet (flag after applyAll? coherent_after coherent_start)

/-- The names at one position are those of one suite of the catalog. -/
theorem names_in_step {catalog : Catalog} {suites : List Suite} {text : Text}
    (h : ∀ s ∈ suites, s ∈ catalog.suites) {j : Nat} {n : Text}
    (hn : (Selection.mk suites text).names[j]? = some n) :
    ∃ s ∈ catalog.suites, s.name = n ∧
      (Selection.mk suites text).opensslNames[j]? = some s.opensslName := by
  rw [names, List.getElem?_map] at hn
  obtain ⟨s, hs, rfl⟩ := Option.map_eq_some_iff.1 hn
  refine ⟨s, h s (List.mem_of_getElem? hs), rfl, ?_⟩
  rw [opensslNames, List.getElem?_map, hs]
  rfl

/-- **Working sets and selections keep in step.**  Whatever rules a working set was reached by: the
order lists places of the catalog, each once; the flags have one entry for each place, those of the
present places are exactly those of the order, and no place of the order is excluded; an exclusion is
for good.  So no access to a flag fails on the way, and each place of the order holds a suite.  The
selection that is built has at least one suite and at most those of the catalog, and its two lists of
names give the names of one suite at each position. -/
theorem after_in_step (catalog : Catalog) :
    (∀ rules : List Rule,
      (after catalog rules).order.Nodup ∧
      (∀ i ∈ (after catalog rules).order, i < catalog.size) ∧
      (after catalog rules).present.length = catalog.size ∧
      (after catalog rules).excluded.length = catalog.size ∧
      (∀ i, flag (after catalog rules).present i = true ↔ i ∈ (after catalog rules).order) ∧
      (∀ i ∈ (after catalog rules).order, flag (after catalog rules).excluded i = false) ∧
      (∀ (later : List Rule) (i : Nat), flag (after catalog rules).excluded i = true →
        flag (after catalog (rules ++ later)).excluded i = true) ∧
      applyAll? catalog (.start catalog) rules = some (after catalog rules) ∧
      (after catalog rules).order.map (catalog.suites[·]?) =
        ((after catalog rules).suites catalog).map some) ∧
    (∀ (rules : List Rule) (selection : Selection),
      (build catalog rules).value = .ok selection →
      1 ≤ selection.names.length ∧ selection.names.length ≤ catalog.size ∧
      selection.opensslNames.length = selection.names.length ∧
      ∀ (j : Nat) (n : Text), selection.names[j]? = some n →
        ∃ s ∈ catalog.suites, s.name = n ∧
          selection.opensslNames[j]? = some s.opensslName) := by
  refine ⟨fun rules => ?_, fun rules selection hbuild => ?_⟩
  · have h := coherent_after catalog rules
    refine ⟨h.nodup, fun i hi => h.lt_size hi, h.length_present, h.length_excluded,
      h.flag_present, h.not_excluded, fun later i hi => ?_, ?_, h.map_getElem?_order⟩
    · rw [after, WorkingSet.applyAll_append]
      exact h.flag_excluded_applyAll later hi
    · exact (coherent_start catalog).applyAll?_eq rules
  · obtain ⟨-, hne, rfl⟩ := value_build_eq_ok_iff.1 hbuild
    have h := coherent_after catalog rules
    have hlen : ((after catalog rules).suites catalog).length =
        (after catalog rules).order.length := h.length_suites
    refine ⟨?_, ?_, ?_, fun j n hn => names_in_step (fun s hs => ?_) hn⟩
    · rw [names, List.length_map, hlen]
      exact List.length_pos_iff.2 hne
    · rw [names, List.length_map, hlen]
      exact h.length_order_le
    · rw [names, opensslNames, List.length_map, List.length_map]
    · obtain ⟨i, -, hi⟩ := List.mem_filterMap.1 hs
      exact List.mem_of_getElem? hi

/-- Strong suites with authentication: an anonymous suite stays excluded, and the first choice has
its two names at the first position. -/
theorem strong_authenticated_in_step :
    flag (after Catalog.builtin [⟨.add, .strength [.high]⟩, ⟨.delete, .authentication [.null]⟩,
        ⟨.add, .always⟩]).excluded 22 = true ∧
    ∃ selection, (build Catalog.builtin
        [⟨.add, .strength [.high]⟩, ⟨.delete, .authentication [.null]⟩]).value = .ok selection ∧
      1 ≤ selection.names.length ∧
      ∃ s ∈ Catalog.builtin.suites, s.name = .of "TLS_RSA_WITH_AES_128_CBC_SHA" ∧
        selection.opensslNames[0]? = some s.opensslName := by
  obtain ⟨hstate, hselection⟩ := after_in_step Catalog.builtin
  obtain ⟨-, -, -, -, -, -, hforGood, -⟩ :=
    hstate [⟨.add, .strength [.high]⟩, ⟨.delete, .authentication [.null]⟩]
  refine ⟨hforGood [⟨.add, .always⟩] 22 (by decide +kernel), ?_⟩
  have hbuild : (build Catalog.builtin
      [⟨.add, .strength [.high]⟩, ⟨.delete, .authentication [.null]⟩]).value = .ok _ :=
    value_build_of_order_ne_nil ⟨by decide, by decide⟩ (by decide +kernel)
  obtain ⟨hone, -, -, hnames⟩ := hselection _ _ hbuild
  exact ⟨_, hbuild, hone, hnames 0 _ (by decide +kernel)⟩

end Selection

end CipherRules
