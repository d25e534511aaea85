import CipherRules.Proofs.WorkingSet.Coherent
import Mathlib.Data.List.Basic

/-!
# Working sets — A deletion moved to the front

Two runs of the same rules, one of them after a deletion.  `Without hits w v` relates the states:
`v` is `w` without the places that are hit, all of which `v` excludes.  Every operation takes related
states to related states (`Without.apply`), since it treats each place on its own or keeps the
places that are left in the order they have.

At the end the first run deletes too, and the states are equal: a deletion has the same effect
wherever it stands (`after_delete_middle`).
-/

namespace CipherRules.WorkingSet

/-- `v` is `w` without the places that are hit, and excludes them besides what `w` excludes. -/
structure Without (hits : List Bool) (w v : WorkingSet) : Prop where
  order : v.order = w.order.filter fun i => !flag hits i
  excluded : ∀ i, flag v.excluded i = (flag w.excluded i || flag hits i)

variable {catalog : Catalog} {hits : List Bool} {w v : WorkingSet}

/-- A deletion leaves a working set without the places that it hits. -/
theorem without_delete (hw : Coherent catalog w) (hl : hits.length = catalog.size) :
    Without hits w (w.delete hits) :=
  ⟨order_delete hw hl, flag_excluded_delete hw hl⟩

namespace Without

theorem add (h : Without hits w v) (hw : Coherent catalog w) (hv : Coherent catalog v)
    {added : List Bool} (hl : added.length = catalog.size) :
    Without hits (w.add added) (v.add added) where
  order := by
    rw [order_add hv hl, order_add hw hl, List.filter_append, h.order, List.filter_filter]
    congr 1
    -- a place that is not hit is selected and excluded in both or in neither
    refine List.filter_congr fun i _ => ?_
    cases hi : flag hits i <;> simp [h.excluded, hi]
  excluded := h.excluded

theorem moveToEnd (h : Without hits w v) (moved : List Bool) :
    Without hits (w.moveToEnd moved) (v.moveToEnd moved) where
  order := by
    simp only [WorkingSet.moveToEnd, h.order, List.filter_append]
    rw [List.filter_comm (fun i => !flag hits i), List.filter_comm (fun i => !flag hits i)]
  excluded := h.excluded

theorem retain (h : Without hits w v) (keep : List Bool) :
    Without hits (w.retain keep) (v.retain keep) where
  order := by
    simp only [WorkingSet.retain, h.order]
    exact List.filter_comm _ _ _
  excluded := h.excluded

theorem delete (h : Without hits w v) (hw : Coherent catalog w) (hv : Coherent catalog v)
    {deleted : List Bool} (hl : deleted.length = catalog.size) :
    Without hits (w.delete deleted) (v.delete deleted) where
  order := by
    rw [order_delete hv hl, order_delete hw hl, h.order]
    exact List.filter_comm _ _ _
  excluded i := by
    rw [flag_excluded_delete hv hl, flag_excluded_delete hw hl, h.excluded, Bool.or_right_comm]

theorem sortByStrength (h : Without hits w v) :
    Without hits (w.sortByStrength catalog) (v.sortByStrength catalog) where
  order := by
    simp only [WorkingSet.sortByStrength, h.order, List.filter_flatMap]
    simp only [List.filter_comm fun i => !flag hits i]
  excluded := h.excluded

/-- **A rule keeps related states related.** -/
theorem apply (h : Without hits w v) (hw : Coherent catalog w) (hv : Coherent catalog v)
    (r : Rule) : Without hits (w.apply catalog r) (v.apply catalog r) := by
  have hl := catalog.length_hits r.predicate
  unfold WorkingSet.apply
  cases r.operation with
  | add => exact h.add hw hv hl
  | pushToEnd => exact (h.moveToEnd _).add hw.moveToEnd hv.moveToEnd hl
  | remove => exact h.moveToEnd _
  | delete => exact h.delete hw hv hl
  | keepOnly => exact h.retain _
  | sortByStrength => exact h.sortByStrength

theorem applyAll (h : Without hits w v) (hw : Coherent catalog w) (hv : Coherent catalog v)
    (rules : List Rule) : Without hits (w.applyAll catalog rules) (v.applyAll catalog rules) := by
  induction rules generalizing w v with
  | nil => exact h
  | cons r rest ih => exact ih (h.apply hw hv r) (hw.apply r) (hv.apply r)

end Without

/-- **A deletion has the same effect wherever it stands.** -/
theorem after_delete_middle (catalog : Catalog) (before later : List Rule) (p : Predicate) :
    after catalog (before ++ ⟨.delete, p⟩ :: later) =
      after catalog (⟨.delete, p⟩ :: before ++ later) := by
  have hl := catalog.length_hits p
  have hstart := coherent_start catalog
  have hw := coherent_after catalog before
  have hv := coherent_after catalog (⟨.delete, p⟩ :: before)
  have h : Without (catalog.hits p) (after catalog before)
      (after catalog (⟨.delete, p⟩ :: before)) :=
    (without_delete hstart hl).applyAll hstart (hstart.delete hl) before
  have state : (after catalog before).apply catalog ⟨.delete, p⟩ =
      after catalog (⟨.delete, p⟩ :: before) := by
    refine (hw.delete hl).ext hv ?_ fun i => ?_
    · rw [order_delete hw hl, h.order]
    · rw [flag_excluded_delete hw hl, h.excluded]
  rw [List.append_cons, after, applyAll_append, ← after, after_concat, state, after,
    ← applyAll_append]
  rfl

end CipherRules.WorkingSet
