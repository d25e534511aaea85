import CipherRules.Proofs.WorkingSet.Priority

/-!
# Working sets — Access place by place

The operations once more, as loops over places.  A loop reads and writes one flag at a time, and an
access outside a list of flags makes it fail.  `applyRule?` runs the loops of one rule, `applyAll?`
those of a list of rules.  To sort is no loop here but the stable sort of the order by strength.

On a coherent working set no access fails, and the loops end where the operation as a whole leads
(`Coherent.applyRule?_eq`, `Coherent.applyAll?_eq`).  Within a loop the working set may be half
updated: while the order is filled again (`retain?`), a place that is still to come is flagged as
present but not in the order, and after an exclusion an excluded place is in the order.  So what a
loop keeps is stated for the flags and for the order apart.
-/

namespace CipherRules.WorkingSet

/-! ### The loops -/

/-- Writes the flag of a place that the list has. -/
def setFlag? (flags : List Bool) (i : Nat) (value : Bool) : Option (List Bool) :=
  if i < flags.length then some (flags.set i value) else none

/-- Appends a place that is hit, unless it is selected or excluded. -/
def addPlace? (hits : List Bool) (w : WorkingSet) (i : Nat) : Option WorkingSet := do
  if !(← w.present[i]?) && !(← w.excluded[i]?) && flag hits i then
    return { w with order := w.order ++ [i], present := ← setFlag? w.present i true }
  else return w

/-- Appends the places that are hit, one after the other. -/
def add? (w : WorkingSet) (hits : List Bool) : Option WorkingSet :=
  (List.range hits.length).foldlM (addPlace? hits) w

/-- Puts a place back into the order, or takes its flag away. -/
def keepPlace? (keep : WorkingSet → Nat → Option Bool) (w : WorkingSet) (i : Nat) :
    Option WorkingSet := do
  if ← keep w i then return { w with order := w.order ++ [i] }
  else return { w with present := ← setFlag? w.present i false }

/-- Empties the order and fills it again with the places to be kept.  What is to be kept is asked of
the working set at that moment. -/
def retain? (w : WorkingSet) (keep : WorkingSet → Nat → Option Bool) : Option WorkingSet :=
  w.order.foldlM (keepPlace? keep) { w with order := [] }

/-- Sets the flags of places, one after the other. -/
def setFlags? (flags : List Bool) (is : List Nat) : Option (List Bool) :=
  is.foldlM (setFlag? · · true) flags

/-- Excludes the places that are hit, then drops those that are excluded. -/
def delete? (w : WorkingSet) (hits : List Bool) : Option WorkingSet := do
  let excluded ← setFlags? w.excluded (places hits)
  { w with excluded }.retain? fun v i => v.excluded[i]?.map (!·)

/-- The effect of a rule, place by place. -/
def applyRule? (catalog : Catalog) (w : WorkingSet) (r : Rule) : Option WorkingSet :=
  let hits := catalog.hits r.predicate
  match r.operation with
  | .add            => w.add? hits
  | .pushToEnd      => (w.moveToEnd hits).add? hits
  | .remove         => some (w.moveToEnd hits)
  | .delete         => w.delete? hits
  | .keepOnly       => w.retain? fun _ i => some (flag hits i)
  | .sortByStrength => some (w.stableSort catalog)

/-- The effect of rules, place by place. -/
def applyAll? (catalog : Catalog) (w : WorkingSet) (rules : List Rule) : Option WorkingSet :=
  rules.foldlM (applyRule? catalog) w

variable {catalog : Catalog} {w : WorkingSet} {hits : List Bool}

/-! ### Flags -/

theorem getElem?_eq_flag {flags : List Bool} {i : Nat} (h : i < flags.length) :
    flags[i]? = some (flag flags i) := by
  rw [flag_eq_getElem h, List.getElem?_eq_getElem h]

theorem setFlag?_of_lt {flags : List Bool} {i : Nat} (h : i < flags.length) (value : Bool) :
    setFlag? flags i value = some (flags.set i value) := if_pos h

theorem flag_set {flags : List Bool} {i : Nat} (h : i < flags.length) (value : Bool) (j : Nat) :
    flag (flags.set i value) j = if j = i then value else flag flags j := by
  by_cases hj : j = i
  · subst hj
    rw [if_pos rfl, flag_eq_getElem (by simpa using h), List.getElem_set_self]
  · rw [if_neg hj, flag, flag, List.getD_eq_getElem?_getD, List.getD_eq_getElem?_getD,
      List.getElem?_set_ne (Ne.symm hj)]

/-- Within the list the flags of places can be set one after the other. -/
theorem setFlags?_eq : ∀ {is : List Nat} {flags : List Bool}, (∀ i ∈ is, i < flags.length) →
    ∃ out, setFlags? flags is = some out ∧ out.length = flags.length ∧
      ∀ j, flag out j = (flag flags j || decide (j ∈ is))
  | [], flags, _ => ⟨flags, rfl, rfl, fun j => by simp⟩
  | i :: rest, flags, h => by
      have hi : i < flags.length := h i List.mem_cons_self
      have hrest : ∀ j ∈ rest, j < (flags.set i true).length := fun j hj => by
        rw [List.length_set]
        exact h j (List.mem_cons_of_mem i hj)
      obtain ⟨out, hout, hlen, hflag⟩ := setFlags?_eq hrest
      refine ⟨out, ?_, hlen.trans List.length_set, fun j => ?_⟩
      · rw [setFlags?, List.foldlM_cons, setFlag?_of_lt hi]
        exact hout
      · rw [hflag, flag_set hi]
        by_cases hj : j = i <;> simp [hj]

/-! ### Adding -/

/-- A place that is neither selected nor excluded may be appended. -/
theorem Coherent.append (h : Coherent catalog w) {i : Nat} (hi : i < catalog.size)
    (hnew : i ∉ w.order) (hfree : flag w.excluded i = false) :
    Coherent catalog { w with order := w.order ++ [i], present := w.present.set i true } where
  length_present := List.length_set.trans h.length_present
  length_excluded := h.length_excluded
  nodup := List.nodup_append.2 ⟨h.nodup, List.pairwise_singleton _ i, fun j hj k hk e =>
    hnew (List.mem_singleton.1 hk ▸ e ▸ hj)⟩
  flag_present j := by
    show flag (w.present.set i true) j = true ↔ j ∈ w.order ++ [i]
    rw [flag_set (h.length_present ▸ hi), List.mem_append, List.mem_singleton, ← h.flag_present]
    by_cases hj : j = i <;> simp [hj]
  not_excluded j hj := by
    rcases List.mem_append.1 hj with hj | hj
    · exact h.not_excluded j hj
    · exact List.mem_singleton.1 hj ▸ hfree

/-- The visit of a place adds it if it is hit and free. -/
theorem Coherent.addPlace?_eq (h : Coherent catalog w) (hits : List Bool) {i : Nat}
    (hi : i < catalog.size) :
    ∃ v, addPlace? hits w i = some v ∧ Coherent catalog v ∧ v.excluded = w.excluded ∧
      v.order = w.order ++
        if flag hits i && (decide (i ∉ w.order) && !flag w.excluded i) then [i] else [] := by
  have hpresent : w.present[i]? = some (decide (i ∈ w.order)) := by
    rw [getElem?_eq_flag (h.length_present ▸ hi), h.flag_present_eq]
  have hexcluded : w.excluded[i]? = some (flag w.excluded i) :=
    getElem?_eq_flag (h.length_excluded ▸ hi)
  by_cases hadd : flag hits i = true ∧ i ∉ w.order ∧ flag w.excluded i = false
  · obtain ⟨hhit, hnew, hfree⟩ := hadd
    refine ⟨_, ?_, h.append hi hnew hfree, rfl, by simp [hhit, hnew, hfree]⟩
    simp [addPlace?, hpresent, hexcluded, hhit, hnew, hfree,
      setFlag?_of_lt (h.length_present ▸ hi : i < w.present.length)]
  · refine ⟨w, ?_, h, rfl, ?_⟩
    · simp only [addPlace?, hpresent, hexcluded]
      grind
    · grind

/-- The visit of places adds those that are hit and free. -/
theorem Coherent.foldlM_addPlace?_eq (hits : List Bool) : ∀ {is : List Nat} {w : WorkingSet},
    Coherent catalog w → is.Nodup → (∀ i ∈ is, i < catalog.size) →
    ∃ v, is.foldlM (addPlace? hits) w = some v ∧ Coherent catalog v ∧ v.excluded = w.excluded ∧
      v.order = w.order ++
        is.filter fun i => flag hits i && (decide (i ∉ w.order) && !flag w.excluded i)
  | [], w, h, _, _ => ⟨w, rfl, h, rfl, (List.append_nil _).symm⟩
  | i :: rest, w, h, hnodup, hlt => by
      obtain ⟨hi, hrest⟩ := List.nodup_cons.1 hnodup
      obtain ⟨u, hu, hcoherent, hexcluded, horder⟩ :=
        h.addPlace?_eq hits (hlt i List.mem_cons_self)
      obtain ⟨v, hv, hcoherent', hexcluded', horder'⟩ :=
        hcoherent.foldlM_addPlace?_eq hits hrest fun j hj => hlt j (List.mem_cons_of_mem i hj)
      refine ⟨v, ?_, hcoherent', hexcluded'.trans hexcluded, ?_⟩
      · rw [List.foldlM_cons, hu]
        exact hv
      · -- whether a later place is free does not depend on this one
        have hsame : ∀ j ∈ rest, (decide (j ∉ u.order) && !flag u.excluded j) =
            (decide (j ∉ w.order) && !flag w.excluded j) := by
          intro j hj
          have hne : j ≠ i := fun e => hi (e ▸ hj)
          rw [hexcluded, horder]
          split <;> simp [hne]
        rw [horder', List.filter_congr fun j hj => by rw [hsame j hj], horder, List.filter_cons]
        split <;> simp

theorem Coherent.add?_eq (h : Coherent catalog w) (hl : hits.length = catalog.size) :
    w.add? hits = some (w.add hits) := by
  obtain ⟨v, hv, hcoherent, hexcluded, horder⟩ :=
    h.foldlM_addPlace?_eq hits List.nodup_range fun i hi => hl ▸ List.mem_range.1 hi
  have hadd : v = w.add hits := by
    refine hcoherent.ext (h.add hl) ?_ fun i => by rw [hexcluded]; rfl
    rw [horder, order_add h hl, places, List.filter_filter]
    exact congrArg (w.order ++ ·) (List.filter_congr fun i _ => Bool.and_comm _ _)
  rw [add?, hv, hadd]

/-! ### Retaining and deleting -/

/-- Places are put back or lose their flag, and the callback does not see a difference as long as
it asks for exclusions alone. -/
theorem foldlM_keepPlace?_eq {keep : WorkingSet → Nat → Option Bool} {kept : List Bool}
    {excluded : List Bool} : ∀ {is : List Nat} {w : WorkingSet}, w.excluded = excluded →
    (∀ i ∈ is, i < w.present.length) →
    (∀ v : WorkingSet, v.excluded = excluded → ∀ i ∈ is, keep v i = some (flag kept i)) →
    ∃ present, is.foldlM (keepPlace? keep) w =
        some ⟨w.order ++ is.filter (flag kept), present, excluded⟩ ∧
      present.length = w.present.length ∧
      ∀ j, flag present j = (flag w.present j && (decide (j ∉ is) || flag kept j))
  | [], w, he, _, _ => ⟨w.present, by simp [← he], rfl, fun j => by simp⟩
  | i :: rest, w, he, hlt, hkeep => by
      have hi : i < w.present.length := hlt i List.mem_cons_self
      have hkeepRest : ∀ v : WorkingSet, v.excluded = excluded → ∀ j ∈ rest,
          keep v j = some (flag kept j) := fun v hv j hj =>
        hkeep v hv j (List.mem_cons_of_mem i hj)
      have hltRest : ∀ j ∈ rest, j < w.present.length := fun j hj =>
        hlt j (List.mem_cons_of_mem i hj)
      have hask : keep w i = some (flag kept i) := hkeep w he i List.mem_cons_self
      rw [List.foldlM_cons, keepPlace?, hask]
      cases hk : flag kept i with
      | true =>
        obtain ⟨present, hfold, hlen, hflag⟩ := foldlM_keepPlace?_eq
          (w := { w with order := w.order ++ [i] }) he hltRest hkeepRest
        refine ⟨present, ?_, hlen, fun j => ?_⟩
        · simpa [hk] using hfold
        · rw [hflag]
          by_cases hj : j = i <;> simp [hj, hk]
      | false =>
        obtain ⟨present, hfold, hlen, hflag⟩ := foldlM_keepPlace?_eq
          (w := { w with present := w.present.set i false }) he
          (by simpa using hltRest) hkeepRest
        refine ⟨present, ?_, hlen.trans List.length_set, fun j => ?_⟩
        · simpa [hk, setFlag?_of_lt hi] using hfold
        · rw [hflag, flag_set hi]
          by_cases hj : j = i <;> simp [hj, hk]

theorem retain?_eq {keep : WorkingSet → Nat → Option Bool} {kept : List Bool}
    (hpresent : ∀ i, flag w.present i = true ↔ i ∈ w.order) (hl : w.present.length = kept.length)
    (hkeep : ∀ v : WorkingSet, v.excluded = w.excluded → ∀ i ∈ w.order,
      keep v i = some (flag kept i)) :
    w.retain? keep = some (w.retain kept) := by
  have hlt : ∀ i ∈ w.order, i < w.present.length := fun i hi =>
    lt_length_of_flag ((hpresent i).2 hi)
  obtain ⟨present, hfold, hlen, hflag⟩ :=
    foldlM_keepPlace?_eq (w := { w with order := [] }) rfl hlt hkeep
  have heq : present = List.zipWith (· && ·) w.present kept := by
    refine flags_ext (by simpa [hl] using hlen) fun i _ => ?_
    rw [hflag, flag_zipWith rfl hl]
    -- a place without flag is not in the order, so it is not visited and stays as it is
    cases hi : flag w.present i with
    | false => simp
    | true => simp [(hpresent i).1 hi]
  rw [retain?, hfold, heq]
  rfl

theorem Coherent.delete?_eq (h : Coherent catalog w) (hl : hits.length = catalog.size) :
    w.delete? hits = some (w.delete hits) := by
  have hlt : ∀ i ∈ places hits, i < w.excluded.length := fun i hi => by
    rw [h.length_excluded, ← hl]
    exact lt_length_of_flag (mem_places.1 hi)
  obtain ⟨excluded, hset, hlen, hflag⟩ := setFlags?_eq hlt
  have heq : excluded = List.zipWith (· || ·) w.excluded hits := by
    refine flags_ext (by simp [hlen, h.length_excluded, hl]) fun i _ => ?_
    rw [hflag, flag_zipWith rfl (h.length_excluded.trans hl.symm)]
    simp
  have hretain : { w with excluded }.retain? (fun v i => v.excluded[i]?.map (!·)) =
      some ({ w with excluded }.retain (excluded.map (!·))) := by
    refine retain?_eq h.flag_present ?_ fun v hv i hi => ?_
    · simp [hlen, h.length_present, h.length_excluded]
    · have hi' : i < excluded.length := by
        rw [hlen, h.length_excluded]
        exact h.lt_size hi
      rw [hv, getElem?_eq_flag hi', flag_map_not hi']
      rfl
  rw [delete?, hset]
  show { w with excluded }.retain? _ = _
  rw [hretain, heq]
  rfl

/-! ### Rules -/

/-- **No access fails.**  Place by place a rule leads a coherent working set to where it leads it as
a whole. -/
theorem Coherent.applyRule?_eq (h : Coherent catalog w) (r : Rule) :
    w.applyRule? catalog r = some (w.apply catalog r) := by
  have hl := catalog.length_hits r.predicate
  unfold applyRule? WorkingSet.apply
  cases r.operation with
  | add => exact h.add?_eq hl
  | pushToEnd => exact h.moveToEnd.add?_eq hl
  | remove => rfl
  | delete => exact h.delete?_eq hl
  | keepOnly => exact retain?_eq h.flag_present (h.length_present.trans hl.symm) fun _ _ _ _ => rfl
  | sortByStrength => exact congrArg some h.stableSort_eq

theorem Coherent.applyAll?_eq (h : Coherent catalog w) (rules : List Rule) :
    w.applyAll? catalog rules = some (w.applyAll catalog rules) := by
  induction rules generalizing w with
  | nil => rfl
  | cons r rest ih =>
    rw [applyAll?, List.foldlM_cons, h.applyRule?_eq]
    exact ih (h.apply r)

end CipherRules.WorkingSet
