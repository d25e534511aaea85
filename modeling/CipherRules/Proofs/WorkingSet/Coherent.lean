import CipherRules.Proofs.WorkingSet.Flags

/-!
# Working sets — Coherence

A working set is coherent when its two lists of flags fit its order: each has one flag for each
place of the catalog, the places of the order are listed once each and are those flagged as
present, and none of them is excluded.

* `coherent_start`, `Coherent.apply`, `Coherent.applyAll`: the empty working set is coherent, a
  rule keeps it so, and so does a list of rules.
* `order_add`, `order_delete`, `mem_order_apply`: what the operations do to the order of a
  coherent working set, in terms of the order and the exclusions alone.
* `Coherent.ext`: the order and the exclusions determine a coherent working set.

`after catalog rules` is the working set that rules make of the empty one; it is coherent
(`coherent_after`).
-/

namespace CipherRules.WorkingSet

/-- The flags of `w` fit its order. -/
structure Coherent (catalog : Catalog) (w : WorkingSet) : Prop where
  length_present : w.present.length = catalog.size
  length_excluded : w.excluded.length = catalog.size
  nodup : w.order.Nodup
  flag_present : ∀ i, flag w.present i = true ↔ i ∈ w.order
  not_excluded : ∀ i ∈ w.order, flag w.excluded i = false

variable {catalog : Catalog} {w v : WorkingSet} {hits : List Bool}

namespace Coherent

theorem lt_size (h : Coherent catalog w) {i : Nat} (hi : i ∈ w.order) : i < catalog.size :=
  h.length_present ▸ lt_length_of_flag ((h.flag_present i).2 hi)

theorem flag_present_eq (h : Coherent catalog w) (i : Nat) :
    flag w.present i = decide (i ∈ w.order) := by
  rw [Bool.eq_iff_iff, decide_eq_true_iff]
  exact h.flag_present i

/-- The order and the exclusions determine a coherent working set. -/
theorem ext (hw : Coherent catalog w) (hv : Coherent catalog v) (order : w.order = v.order)
    (excluded : ∀ i, flag w.excluded i = flag v.excluded i) : w = v := by
  have hp : w.present = v.present :=
    flags_ext (hw.length_present.trans hv.length_present.symm) fun i _ => by
      rw [hw.flag_present_eq, hv.flag_present_eq, order]
  have he : w.excluded = v.excluded :=
    flags_ext (hw.length_excluded.trans hv.length_excluded.symm) fun i _ => excluded i
  cases w
  cases v
  cases order
  cases hp
  cases he
  rfl

end Coherent

theorem coherent_start (catalog : Catalog) : Coherent catalog (start catalog) where
  length_present := List.length_replicate
  length_excluded := List.length_replicate
  nodup := List.nodup_nil
  flag_present i := by simp [start]
  not_excluded i hi := absurd hi List.not_mem_nil

/-! ### Adding -/

theorem length_fresh (h : Coherent catalog w) (hl : hits.length = catalog.size) :
    (w.fresh hits).length = catalog.size := by
  simp [fresh, h.length_present, h.length_excluded, hl]

theorem flag_fresh (h : Coherent catalog w) (hl : hits.length = catalog.size) {i : Nat}
    (hi : i < catalog.size) :
    flag (w.fresh hits) i =
      (flag hits i && (decide (i ∉ w.order) && !flag w.excluded i)) := by
  have hp := h.length_present
  have he := h.length_excluded
  rw [fresh, flag_zipWith_of_lt _ (by rw [List.length_zipWith]; omega) (by omega),
    flag_zipWith_of_lt _ (by omega) (by omega), h.flag_present_eq, decide_not, Bool.and_comm]

/-- The places that are added, in catalog order. -/
theorem places_fresh (h : Coherent catalog w) (hl : hits.length = catalog.size) :
    places (w.fresh hits) =
      (places hits).filter fun i => decide (i ∉ w.order) && !flag w.excluded i := by
  have hf := length_fresh h hl
  exact places_eq_filter (hf.trans hl.symm) fun i hi => flag_fresh h hl (hf ▸ hi)

theorem order_add (h : Coherent catalog w) (hl : hits.length = catalog.size) :
    (w.add hits).order =
      w.order ++ (places hits).filter fun i => decide (i ∉ w.order) && !flag w.excluded i :=
  congrArg (w.order ++ ·) (places_fresh h hl)

theorem mem_order_add (h : Coherent catalog w) (hl : hits.length = catalog.size) {i : Nat} :
    i ∈ (w.add hits).order ↔
      i ∈ w.order ∨ flag hits i = true ∧ flag w.excluded i = false := by
  simp only [order_add h hl, List.mem_append, List.mem_filter, mem_places, Bool.and_eq_true,
    decide_eq_true_iff, Bool.not_eq_true']
  -- a place that is selected already is not added again
  by_cases hi : i ∈ w.order <;> simp [hi]

theorem Coherent.add (h : Coherent catalog w) (hl : hits.length = catalog.size) :
    Coherent catalog (w.add hits) where
  length_present := by
    have hf := length_fresh h hl
    simp [WorkingSet.add, h.length_present, hf]
  length_excluded := h.length_excluded
  nodup := by
    rw [order_add h hl]
    refine List.nodup_append.2 ⟨h.nodup, (nodup_places hits).filter _, fun i hi j hj e => ?_⟩
    subst e
    simp [hi] at hj
  flag_present i := by
    have hf : w.present.length = (w.fresh hits).length :=
      h.length_present.trans (length_fresh h hl).symm
    show flag (List.zipWith (· || ·) w.present (w.fresh hits)) i = true ↔
      i ∈ w.order ++ places (w.fresh hits)
    rw [flag_zipWith rfl hf, Bool.or_eq_true, h.flag_present, List.mem_append, mem_places]
  not_excluded i hi := by
    rcases (mem_order_add h hl).1 hi with hi | hi
    · exact h.not_excluded i hi
    · exact hi.2

/-! ### Moving to the end -/

@[simp] theorem mem_order_moveToEnd {i : Nat} : i ∈ (w.moveToEnd hits).order ↔ i ∈ w.order := by
  simp only [moveToEnd, List.mem_append, List.mem_filter]
  cases flag hits i <;> simp

theorem order_moveToEnd_of_not_hit (h : ∀ i, flag hits i = false) :
    (w.moveToEnd hits).order = w.order := by
  have kept : w.order.filter (fun i => !flag hits i) = w.order :=
    List.filter_eq_self.2 fun i _ => by rw [h]; rfl
  have moved : w.order.filter (flag hits) = [] :=
    List.filter_eq_nil_iff.2 fun i _ => by rw [h]; exact Bool.false_ne_true
  simp only [moveToEnd, kept, moved, List.append_nil]

theorem Coherent.moveToEnd (h : Coherent catalog w) : Coherent catalog (w.moveToEnd hits) where
  length_present := h.length_present
  length_excluded := h.length_excluded
  nodup := by
    refine List.nodup_append.2 ⟨h.nodup.filter _, h.nodup.filter _, fun i hi j hj e => ?_⟩
    subst e
    simp only [List.mem_filter] at hi hj
    rw [hj.2] at hi
    exact absurd hi.2 (by simp)
  flag_present i := by rw [mem_order_moveToEnd]; exact h.flag_present i
  not_excluded i hi := h.not_excluded i (mem_order_moveToEnd.1 hi)

/-! ### Retaining and deleting -/

@[simp] theorem mem_order_retain {i : Nat} :
    i ∈ (w.retain hits).order ↔ i ∈ w.order ∧ flag hits i = true :=
  List.mem_filter

theorem Coherent.retain (h : Coherent catalog w) (hl : hits.length = catalog.size) :
    Coherent catalog (w.retain hits) where
  length_present := by simp [WorkingSet.retain, h.length_present, hl]
  length_excluded := h.length_excluded
  nodup := h.nodup.filter _
  flag_present i := by
    show flag (List.zipWith (· && ·) w.present hits) i = true ↔ i ∈ (w.retain hits).order
    rw [flag_zipWith rfl (h.length_present.trans hl.symm), Bool.and_eq_true, h.flag_present,
      mem_order_retain]
  not_excluded i hi := h.not_excluded i (mem_order_retain.1 hi).1

/-- A deletion excludes the places that are hit, besides those excluded before. -/
theorem flag_excluded_delete (h : Coherent catalog w) (hl : hits.length = catalog.size)
    (i : Nat) : flag (w.delete hits).excluded i = (flag w.excluded i || flag hits i) :=
  flag_zipWith rfl (h.length_excluded.trans hl.symm) i

/-- A deletion drops the places that are hit: no other one of the order is excluded. -/
theorem order_delete (h : Coherent catalog w) (hl : hits.length = catalog.size) :
    (w.delete hits).order = w.order.filter fun i => !flag hits i := by
  have hz := h.length_excluded.trans hl.symm
  refine List.filter_congr fun i hi => ?_
  have hi' : i < (List.zipWith (· || ·) w.excluded hits).length := by
    have hs := h.lt_size hi
    rw [List.length_zipWith, h.length_excluded, hl]
    omega
  rw [flag_map_not hi', flag_zipWith rfl hz, h.not_excluded i hi, Bool.false_or]

theorem mem_order_delete (h : Coherent catalog w) (hl : hits.length = catalog.size) {i : Nat} :
    i ∈ (w.delete hits).order ↔ i ∈ w.order ∧ flag hits i = false := by
  simp [order_delete h hl]

theorem Coherent.delete (h : Coherent catalog w) (hl : hits.length = catalog.size) :
    Coherent catalog (w.delete hits) where
  length_present := by
    simp [WorkingSet.delete, WorkingSet.retain, h.length_present, h.length_excluded, hl]
  length_excluded := by simp [WorkingSet.delete, WorkingSet.retain, h.length_excluded, hl]
  nodup := by rw [order_delete h hl]; exact h.nodup.filter _
  flag_present i := by
    have hk : w.present.length = ((List.zipWith (· || ·) w.excluded hits).map (!·)).length := by
      simp [h.length_present, h.length_excluded, hl]
    show flag (List.zipWith (· && ·) w.present _) i = true ↔ i ∈ (w.delete hits).order
    rw [flag_zipWith rfl hk, Bool.and_eq_true, h.flag_present]
    exact List.mem_filter.symm
  not_excluded i hi := by
    obtain ⟨ho, hh⟩ := (mem_order_delete h hl).1 hi
    rw [flag_excluded_delete h hl, h.not_excluded i ho, hh]
    rfl

/-! ### Sorting -/

/-- A place of the catalog is in exactly one class. -/
theorem mem_order_sortByStrength (h : Coherent catalog w) {i : Nat} :
    i ∈ (w.sortByStrength catalog).order ↔ i ∈ w.order := by
  simp only [sortByStrength, List.mem_flatMap, List.mem_filter, List.mem_reverse]
  refine ⟨fun ⟨_, _, hi, _⟩ => hi, fun hi => ?_⟩
  have hs : i < catalog.suites.length := h.lt_size hi
  -- the class of a place is that of its suite
  refine ⟨catalog.suites[i].strength, Family.mem_all _, hi, ?_⟩
  simp [Catalog.strengthAt?, hs]

theorem Coherent.sortByStrength (h : Coherent catalog w) :
    Coherent catalog (w.sortByStrength catalog) where
  length_present := h.length_present
  length_excluded := h.length_excluded
  nodup := by
    refine List.pairwise_flatMap.2 ⟨fun _ _ => h.nodup.filter _, ?_⟩
    have distinct : (Family.all : List Strength).reverse.Pairwise (· ≠ ·) := by decide
    refine distinct.imp fun hne i hi j hj e => ?_
    subst e
    simp only [List.mem_filter, beq_iff_eq] at hi hj
    exact hne (Option.some.inj (hi.2.symm.trans hj.2))
  flag_present i := by rw [mem_order_sortByStrength h]; exact h.flag_present i
  not_excluded i hi := h.not_excluded i ((mem_order_sortByStrength h).1 hi)

/-! ### Rules -/

/-- A rule keeps a working set coherent. -/
theorem Coherent.apply (h : Coherent catalog w) (r : Rule) :
    Coherent catalog (w.apply catalog r) := by
  have hl := catalog.length_hits r.predicate
  unfold WorkingSet.apply
  cases r.operation with
  | add => exact h.add hl
  | pushToEnd => exact h.moveToEnd.add hl
  | remove => exact h.moveToEnd
  | delete => exact h.delete hl
  | keepOnly => exact h.retain hl
  | sortByStrength => exact h.sortByStrength

/-- A list of rules keeps a working set coherent. -/
theorem Coherent.applyAll (h : Coherent catalog w) (rules : List Rule) :
    Coherent catalog (w.applyAll catalog rules) := by
  induction rules generalizing w with
  | nil => exact h
  | cons r rest ih => exact ih (h.apply r)

/-! ### Reached working sets -/

/-- The working set that rules make of the empty one. -/
def after (catalog : Catalog) (rules : List Rule) : WorkingSet :=
  (start catalog).applyAll catalog rules

theorem coherent_after (catalog : Catalog) (rules : List Rule) :
    Coherent catalog (after catalog rules) :=
  (coherent_start catalog).applyAll rules

theorem applyAll_append (catalog : Catalog) (w : WorkingSet) (rules others : List Rule) :
    w.applyAll catalog (rules ++ others) = (w.applyAll catalog rules).applyAll catalog others :=
  List.foldl_append

theorem after_append (catalog : Catalog) (rules later : List Rule) :
    after catalog (rules ++ later) = (after catalog rules).applyAll catalog later :=
  applyAll_append catalog _ rules later

theorem after_concat (catalog : Catalog) (rules : List Rule) (r : Rule) :
    after catalog (rules ++ [r]) = (after catalog rules).apply catalog r :=
  applyAll_append catalog _ rules [r]

/-! ### Membership -/

/-- What a rule does to the membership of the suite at a place. -/
theorem mem_order_apply (h : Coherent catalog w) (r : Rule) {i : Nat} {s : Suite}
    (hs : catalog.suites[i]? = some s) :
    i ∈ (w.apply catalog r).order ↔
      match r.operation with
      | .add | .pushToEnd => i ∈ w.order ∨ r.predicate.accepts s = true ∧ flag w.excluded i = false
      | .remove | .sortByStrength => i ∈ w.order
      | .delete => i ∈ w.order ∧ r.predicate.accepts s = false
      | .keepOnly => i ∈ w.order ∧ r.predicate.accepts s = true := by
  have hl := catalog.length_hits r.predicate
  have hhit := Catalog.flag_hits_of_getElem? hs r.predicate
  unfold WorkingSet.apply
  cases r.operation with
  | add => rw [mem_order_add h hl, hhit]
  | pushToEnd => rw [mem_order_add h.moveToEnd hl, mem_order_moveToEnd, hhit]; rfl
  | remove => exact mem_order_moveToEnd
  | delete => rw [mem_order_delete h hl, hhit]
  | keepOnly => rw [mem_order_retain, hhit]
  | sortByStrength => exact mem_order_sortByStrength h

/-- What a rule does to the exclusion of the suite at a place. -/
theorem flag_excluded_apply (h : Coherent catalog w) (r : Rule) {i : Nat} {s : Suite}
    (hs : catalog.suites[i]? = some s) :
    flag (w.apply catalog r).excluded i =
      (flag w.excluded i || (r.operation == .delete && r.predicate.accepts s)) := by
  have hl := catalog.length_hits r.predicate
  unfold WorkingSet.apply
  cases r.operation with
  | delete => rw [flag_excluded_delete h hl, Catalog.flag_hits_of_getElem? hs]; rfl
  | _ => exact (Bool.or_false _).symm

end CipherRules.WorkingSet
