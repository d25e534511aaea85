import CipherRules.Proofs.WorkingSet.Coherent

/-!
# Working sets — Redundancy

Rules that find their work done.  An operation leaves a working set as it is when there is nothing
left to add (`Exhausts`), when the places to be moved stand at the end already, when nothing is left
to drop, or when each strength class stands where the sort puts it.

* `Coherent.apply_apply`: every operation leaves its own work done, so a rule that is repeated has
  no effect.
* `Coherent.exhausts_applyAll`: once there is nothing left to add from a class, only a rule that
  keeps another class changes that.  A place that leaves the order by a deletion is excluded.
* `after_add_of_exhausted`: so what is added again later, from the same class, has no effect.
-/

namespace CipherRules.WorkingSet

variable {catalog : Catalog} {w : WorkingSet} {hits : List Bool}

/-! ### Nothing left to add -/

/-- Each place that is hit is selected or excluded. -/
def Exhausts (w : WorkingSet) (hits : List Bool) : Prop :=
  ∀ i, flag hits i = true → i ∈ w.order ∨ flag w.excluded i = true

/-- Where nothing is left to add, adding has no effect. -/
theorem Coherent.add_of_exhausts (h : Coherent catalog w) (hl : hits.length = catalog.size)
    (hdone : w.Exhausts hits) : w.add hits = w := by
  have hnone : ((places hits).filter fun i => decide (i ∉ w.order) && !flag w.excluded i) = [] := by
    rw [List.filter_eq_nil_iff]
    intro i hi
    rcases hdone i (mem_places.1 hi) with hmem | hexcluded
    · simp [hmem]
    · simp [hexcluded]
  refine (h.add hl).ext h ?_ fun _ => rfl
  rw [order_add h hl, hnone, List.append_nil]

theorem Coherent.exhausts_add (h : Coherent catalog w) (hl : hits.length = catalog.size) :
    (w.add hits).Exhausts hits := by
  intro i hi
  cases hexcluded : flag w.excluded i with
  | true => exact .inr hexcluded
  | false => exact .inl ((mem_order_add h hl).2 (.inr ⟨hi, hexcluded⟩))

/-! ### Nothing left to move -/

/-- Places that stand last already are not moved. -/
theorem moveToEnd_of_order_eq {kept moved : List Nat} (horder : w.order = kept ++ moved)
    (hkept : ∀ i ∈ kept, flag hits i = false) (hmoved : ∀ i ∈ moved, flag hits i = true) :
    w.moveToEnd hits = w := by
  have hfront : (w.order.filter fun i => !flag hits i) = kept := by
    have hall : (kept.filter fun i => !flag hits i) = kept :=
      List.filter_eq_self.2 fun i hi => by simp [hkept i hi]
    have hnone : (moved.filter fun i => !flag hits i) = [] :=
      List.filter_eq_nil_iff.2 fun i hi => by simp [hmoved i hi]
    rw [horder, List.filter_append, hall, hnone, List.append_nil]
  have hback : w.order.filter (flag hits) = moved := by
    have hnone : kept.filter (flag hits) = [] :=
      List.filter_eq_nil_iff.2 fun i hi => by simp [hkept i hi]
    rw [horder, List.filter_append, hnone, List.filter_eq_self.2 hmoved, List.nil_append]
  rw [WorkingSet.moveToEnd, hfront, hback, ← horder]

theorem moveToEnd_moveToEnd (w : WorkingSet) (hits : List Bool) :
    (w.moveToEnd hits).moveToEnd hits = w.moveToEnd hits := by
  refine moveToEnd_of_order_eq rfl (fun i hi => ?_) fun i hi => (List.mem_filter.1 hi).2
  simpa using (List.mem_filter.1 hi).2

/-- What is added stands behind what was moved, and is of the same class. -/
theorem Coherent.moveToEnd_add_moveToEnd (h : Coherent catalog w)
    (hl : hits.length = catalog.size) :
    ((w.moveToEnd hits).add hits).moveToEnd hits = (w.moveToEnd hits).add hits := by
  have hmoved : Coherent catalog (w.moveToEnd hits) := h.moveToEnd
  have horder := order_add hmoved hl
  rw [WorkingSet.moveToEnd, List.append_assoc] at horder
  refine moveToEnd_of_order_eq horder (fun i hi => ?_) fun i hi => ?_
  · simpa using (List.mem_filter.1 hi).2
  · rcases List.mem_append.1 hi with hi | hi
    · exact (List.mem_filter.1 hi).2
    · exact mem_places.1 (List.mem_filter.1 hi).1

/-! ### Nothing left to drop -/

/-- If all places are to be kept, none is dropped. -/
theorem Coherent.retain_of_kept (h : Coherent catalog w) (hl : hits.length = catalog.size)
    (hkept : ∀ i ∈ w.order, flag hits i = true) : w.retain hits = w :=
  (h.retain hl).ext h (List.filter_eq_self.2 hkept) fun _ => rfl

/-- Deleting what is excluded already has no effect. -/
theorem Coherent.delete_of_excluded (h : Coherent catalog w) (hl : hits.length = catalog.size)
    (hdone : ∀ i, flag hits i = true → flag w.excluded i = true) : w.delete hits = w := by
  refine (h.delete hl).ext h ?_ fun i => ?_
  · rw [order_delete h hl, List.filter_eq_self]
    intro i hi
    -- no place of the order is excluded, so none is hit
    cases hhit : flag hits i with
    | false => rfl
    | true =>
      have hexcluded := hdone i hhit
      rw [h.not_excluded i hi] at hexcluded
      cases hexcluded
  · rw [flag_excluded_delete h hl]
    cases hhit : flag hits i with
    | false => exact Bool.or_false _
    | true => rw [hdone i hhit]; rfl

/-! ### Nothing left to sort -/

/-- A sort leaves each strength class as it stands. -/
theorem filter_sortByStrength (catalog : Catalog) (w : WorkingSet) (k : Strength) :
    ((w.sortByStrength catalog).order.filter fun i => catalog.strengthAt? i == some k) =
      w.order.filter fun i => catalog.strengthAt? i == some k := by
  have hclass : ∀ s : Strength, ((w.order.filter fun i => catalog.strengthAt? i == some s).filter
      fun i => catalog.strengthAt? i == some k) =
        if s = k then w.order.filter fun i => catalog.strengthAt? i == some k else [] := by
    intro s
    split
    · rename_i heq
      rw [heq, List.filter_filter]
      simp only [Bool.and_self]
    · rename_i hne
      rw [List.filter_filter, List.filter_eq_nil_iff]
      intro i _ hboth
      simp only [Bool.and_eq_true, beq_iff_eq] at hboth
      exact hne (Option.some.inj (hboth.2.symm.trans hboth.1))
  rw [sortByStrength, List.filter_flatMap]
  simp only [hclass]
  cases k <;> simp [Family.all]

theorem sortByStrength_sortByStrength (catalog : Catalog) (w : WorkingSet) :
    (w.sortByStrength catalog).sortByStrength catalog = w.sortByStrength catalog := by
  rw [sortByStrength]
  simp only [filter_sortByStrength]
  rfl

/-! ### Repeated rules -/

/-- **A rule that is repeated has no effect.** -/
theorem Coherent.apply_apply (h : Coherent catalog w) (r : Rule) :
    (w.apply catalog r).apply catalog r = w.apply catalog r := by
  have hl := catalog.length_hits r.predicate
  unfold WorkingSet.apply
  cases r.operation with
  | add => exact (h.add hl).add_of_exhausts hl (h.exhausts_add hl)
  | pushToEnd =>
    have hmoved : Coherent catalog (w.moveToEnd (catalog.hits r.predicate)) := h.moveToEnd
    simp only [h.moveToEnd_add_moveToEnd hl]
    exact (hmoved.add hl).add_of_exhausts hl (hmoved.exhausts_add hl)
  | remove => exact moveToEnd_moveToEnd _ _
  | delete =>
    refine (h.delete hl).delete_of_excluded hl fun i hi => ?_
    rw [flag_excluded_delete h hl, hi, Bool.or_true]
  | keepOnly => exact (h.retain hl).retain_of_kept hl fun i hi => (mem_order_retain.1 hi).2
  | sortByStrength => exact sortByStrength_sortByStrength _ _

/-- Rules of which one is repeated reach what they reach without the repetition. -/
theorem after_repeated (catalog : Catalog) (before later : List Rule) (r : Rule) :
    after catalog (before ++ [r, r] ++ later) = after catalog (before ++ [r] ++ later) := by
  have htwice : after catalog (before ++ [r, r]) = after catalog (before ++ [r]) := by
    rw [List.append_cons, after_concat, after_concat, (coherent_after catalog before).apply_apply]
  rw [after_append, htwice, ← after_append]

/-! ### Later additions -/

variable {p q : Predicate}

/-- A rule that adds a class leaves nothing of it to add. -/
theorem Coherent.exhausts_of_adds (h : Coherent catalog w) {op : Operation}
    (hop : op = .add ∨ op = .pushToEnd) :
    (w.apply catalog ⟨op, p⟩).Exhausts (catalog.hits p) := by
  have hl := catalog.length_hits p
  rcases hop with rfl | rfl
  · exact h.exhausts_add hl
  · exact h.moveToEnd.exhausts_add hl

/-- **Where nothing of a class is left to add, a rule leaves nothing to add**, unless it keeps
another class: a place leaves the order only by being excluded. -/
theorem Coherent.exhausts_apply (h : Coherent catalog w) (hdone : w.Exhausts (catalog.hits p))
    {r : Rule} (hr : r.operation ≠ .keepOnly) :
    (w.apply catalog r).Exhausts (catalog.hits p) := by
  intro i hi
  obtain ⟨s, hs, -⟩ := Catalog.exists_of_flag_hits hi
  rw [mem_order_apply h r hs, flag_excluded_apply h r hs]
  rcases hdone i hi with hmem | hexcluded
  · cases hop : r.operation with
    | add | pushToEnd => exact .inl (.inl hmem)
    | remove | sortByStrength => exact .inl hmem
    | delete =>
      cases haccepts : r.predicate.accepts s with
      | true => exact .inr (Bool.or_true _)
      | false => exact .inl ⟨hmem, rfl⟩
    | keepOnly => exact absurd hop hr
  · exact .inr (by rw [hexcluded, Bool.true_or])

theorem Coherent.exhausts_applyAll (h : Coherent catalog w)
    (hdone : w.Exhausts (catalog.hits p)) {rules : List Rule}
    (hrules : ∀ r ∈ rules, r.operation ≠ .keepOnly) :
    (w.applyAll catalog rules).Exhausts (catalog.hits p) := by
  induction rules generalizing w with
  | nil => exact hdone
  | cons r rest ih =>
    have hr : r.operation ≠ .keepOnly := hrules r List.mem_cons_self
    exact ih (h.apply r) (h.exhausts_apply hdone hr) fun k hk =>
      hrules k (List.mem_cons_of_mem r hk)

/-- A class has nothing left to add if a larger one has not. -/
theorem Exhausts.mono (hdone : w.Exhausts (catalog.hits p))
    (hpq : ∀ s ∈ catalog.suites, q.accepts s = true → p.accepts s = true) :
    w.Exhausts (catalog.hits q) := by
  intro i hi
  obtain ⟨s, hs, haccepts⟩ := Catalog.exists_of_flag_hits hi
  refine hdone i ?_
  rw [Catalog.flag_hits_of_getElem? hs]
  exact hpq s (List.mem_of_getElem? hs) haccepts

/-- **What is added again later has no effect**, if no rule in between keeps a class. -/
theorem after_add_of_exhausted (catalog : Catalog) (before middle later : List Rule)
    {op : Operation} (hop : op = .add ∨ op = .pushToEnd)
    (hpq : ∀ s ∈ catalog.suites, q.accepts s = true → p.accepts s = true)
    (hmiddle : ∀ r ∈ middle, r.operation ≠ .keepOnly) :
    after catalog (before ++ ⟨op, p⟩ :: middle ++ ⟨.add, q⟩ :: later) =
      after catalog (before ++ ⟨op, p⟩ :: middle ++ later) := by
  have hbefore := coherent_after catalog before
  have hreached := coherent_after catalog (before ++ ⟨op, p⟩ :: middle)
  have hdone : (after catalog (before ++ ⟨op, p⟩ :: middle)).Exhausts (catalog.hits p) := by
    rw [after_append]
    exact (hbefore.apply ⟨op, p⟩).exhausts_applyAll (hbefore.exhausts_of_adds hop) hmiddle
  have hstep : (after catalog (before ++ ⟨op, p⟩ :: middle)).apply catalog ⟨.add, q⟩ =
      after catalog (before ++ ⟨op, p⟩ :: middle) :=
    hreached.add_of_exhausts (catalog.length_hits q) (hdone.mono hpq)
  rw [List.append_cons, after_append, after_concat, hstep, ← after_append]

end CipherRules.WorkingSet
