import CipherRules.Catalog.Builtin
import CipherRules.Proofs.WorkingSet.Coherent

/-!
# Working sets — Priority

What one rule does to the order of preference, place against place.  `Precedes order i j` says that
`i` stands before `j`.

* `precedes_add_iff`, `precedes_moveToEnd_iff`, `precedes_sortByStrength_iff`: how the operations
  rearrange the places that stay.  Dropping places leaves the others in their order
  (`precedes_filter_iff`).
* `Coherent.stableSort_eq`: the sort is the stable one by strength.
* `exists_order_apply`: the places that a rule adds stand behind all that stay, in catalog order.
* `rearranges_after`: the two together, for every working set that rules reach and each further
  rule.
-/

namespace CipherRules.WorkingSet

/-! ### Standing before another -/

section Precedes

variable {α : Type} {l k : List α} {a b : α}

/-- `a` stands before `b` in the list. -/
def Precedes (l : List α) (a b : α) : Prop := [a, b].Sublist l

instance [DecidableEq α] (l : List α) (a b : α) : Decidable (Precedes l a b) :=
  inferInstanceAs (Decidable ([a, b].Sublist l))

theorem Precedes.mem_left (h : Precedes l a b) : a ∈ l := h.subset (by simp)

theorem Precedes.mem_right (h : Precedes l a b) : b ∈ l := h.subset (by simp)

theorem precedes_iff_exists_append :
    Precedes l a b ↔ ∃ front back, l = front ++ back ∧ a ∈ front ∧ b ∈ back := by
  rw [Precedes, List.cons_sublist_iff]
  simp only [List.singleton_sublist]

/-- In two lists behind each other a pair stands in one of them, or across both. -/
theorem precedes_append_iff :
    Precedes (l ++ k) a b ↔ Precedes l a b ∨ a ∈ l ∧ b ∈ k ∨ Precedes k a b := by
  constructor
  · intro h
    obtain ⟨first, second, hpair, hfirst, hsecond⟩ := List.sublist_append_iff.1 h
    cases first with
    | nil =>
      subst hpair
      exact .inr (.inr hsecond)
    | cons c rest =>
      obtain ⟨rfl, hrest⟩ := List.cons.inj hpair
      rcases List.singleton_eq_append_iff.1 hrest with ⟨rfl, rfl⟩ | ⟨rfl, rfl⟩
      · exact .inr (.inl ⟨List.singleton_sublist.1 hfirst, List.singleton_sublist.1 hsecond⟩)
      · exact .inl hfirst
  · rintro (h | ⟨ha, hb⟩ | h)
    · exact h.trans (List.sublist_append_left l k)
    · exact precedes_iff_exists_append.2 ⟨l, k, rfl, ha, hb⟩
    · exact h.trans (List.sublist_append_right l k)

/-- Dropping elements leaves the others in their order. -/
theorem precedes_filter_iff {p : α → Bool} :
    Precedes (l.filter p) a b ↔ p a = true ∧ p b = true ∧ Precedes l a b := by
  constructor
  · intro h
    exact ⟨(List.mem_filter.1 h.mem_left).2, (List.mem_filter.1 h.mem_right).2,
      h.trans List.filter_sublist⟩
  · rintro ⟨ha, hb, h⟩
    have hkept := List.Sublist.filter p h
    rwa [List.filter_cons_of_pos ha, List.filter_cons_of_pos hb] at hkept

/-- Of two elements of a list one stands before the other. -/
theorem precedes_or_precedes (ha : a ∈ l) (hb : b ∈ l) (hne : a ≠ b) :
    Precedes l a b ∨ Precedes l b a := by
  obtain ⟨front, back, rfl⟩ := List.append_of_mem ha
  rcases List.mem_append.1 hb with hb | hb
  · exact .inr (precedes_append_iff.2 (.inr (.inl ⟨hb, List.mem_cons_self⟩)))
  · have hback : b ∈ back := (List.mem_cons.1 hb).resolve_left (Ne.symm hne)
    exact .inl (precedes_append_iff.2 (.inr (.inr
      ((List.singleton_sublist.2 hback).cons_cons a))))

/-- Without repetitions no two elements stand before each other. -/
theorem Precedes.asymm (hl : l.Nodup) (h : Precedes l a b) : ¬ Precedes l b a := by
  obtain ⟨front, back, rfl, ha, hb⟩ := precedes_iff_exists_append.1 h
  obtain ⟨-, -, hdisjoint⟩ := List.nodup_append.1 hl
  rw [precedes_append_iff]
  rintro (h' | ⟨hb', -⟩ | h')
  · exact hdisjoint b h'.mem_left b hb rfl
  · exact hdisjoint b hb' b hb rfl
  · exact hdisjoint a ha a h'.mem_right rfl

/-- A list in the order of a relation that holds one way only: the relation tells which of two
elements stands first. -/
theorem precedes_iff_of_pairwise {R : α → α → Prop} (hl : l.Pairwise R)
    (hasymm : ∀ a b, R a b → ¬ R b a) (ha : a ∈ l) (hb : b ∈ l) : Precedes l a b ↔ R a b := by
  have hall : ∀ {a b : α}, Precedes l a b → R a b := List.pairwise_iff_forall_sublist.1 hl
  refine ⟨hall, fun hR => ?_⟩
  have hne : a ≠ b := by
    rintro rfl
    exact hasymm a a hR hR
  exact (precedes_or_precedes ha hb hne).resolve_right fun h => hasymm a b hR (hall h)

end Precedes

/-! ### The operations -/

variable {catalog : Catalog} {w : WorkingSet} {hits : List Bool} {i j : Nat}

/-- The places that were selected stay in front of those added, in the order they had. -/
theorem precedes_add_iff (h : Coherent catalog w) (hl : hits.length = catalog.size)
    (hi : i ∈ w.order) (hj : j ∈ w.order) :
    Precedes (w.add hits).order i j ↔ Precedes w.order i j := by
  have hold : ∀ k ∈ w.order, k ∉ places (w.fresh hits) := by
    intro k hk
    simp [places_fresh h hl, hk]
  show Precedes (w.order ++ places (w.fresh hits)) i j ↔ _
  rw [precedes_append_iff]
  refine ⟨fun hij => ?_, Or.inl⟩
  rcases hij with hij | ⟨-, hj'⟩ | hij
  · exact hij
  · exact absurd hj' (hold j hj)
  · exact absurd hij.mem_left (hold i hi)

/-- Of two places that stay selected the one that is not hit comes first; two that are hit, or two
that are not, keep the order they had. -/
theorem precedes_moveToEnd_iff (hi : i ∈ w.order) (hj : j ∈ w.order) :
    Precedes (w.moveToEnd hits).order i j ↔
      flag hits i = false ∧ flag hits j = true ∨
        flag hits i = flag hits j ∧ Precedes w.order i j := by
  simp only [moveToEnd, precedes_append_iff, precedes_filter_iff, List.mem_filter, hi, hj,
    true_and, Bool.not_eq_true']
  cases flag hits i <;> cases flag hits j <;> simp

/-- The order that a sort makes of an order: a stronger place first, and places of one strength as
they stood. -/
def Stronger (catalog : Catalog) (order : List Nat) (i j : Nat) : Prop :=
  ∃ s t, catalog.strengthAt? i = some s ∧ catalog.strengthAt? j = some t ∧
    (Family.rank t < Family.rank s ∨ s = t ∧ Precedes order i j)

theorem Stronger.asymm {order : List Nat} (horder : order.Nodup)
    (h : Stronger catalog order i j) : ¬ Stronger catalog order j i := by
  obtain ⟨s, t, hs, ht, hst⟩ := h
  rintro ⟨t', s', ht', hs', hts⟩
  obtain rfl : t = t' := Option.some.inj (ht.symm.trans ht')
  obtain rfl : s = s' := Option.some.inj (hs.symm.trans hs')
  rcases hst with hlt | ⟨rfl, hij⟩ <;> rcases hts with hlt' | ⟨heq, hji⟩
  · exact Nat.lt_asymm hlt hlt'
  · exact absurd hlt (heq ▸ Nat.lt_irrefl _)
  · exact Nat.lt_irrefl _ hlt'
  · exact hij.asymm horder hji

/-- A sorted order has the strongest places first, each class as it stood. -/
theorem pairwise_order_sortByStrength (catalog : Catalog) (w : WorkingSet) :
    (w.sortByStrength catalog).order.Pairwise (Stronger catalog w.order) := by
  have hclass : ∀ {k : Strength} {i : Nat},
      i ∈ w.order.filter (fun i => catalog.strengthAt? i == some k) →
        catalog.strengthAt? i = some k := fun hi => beq_iff_eq.1 (List.mem_filter.1 hi).2
  refine List.pairwise_flatMap.2 ⟨fun k _ => ?_, ?_⟩
  · refine List.pairwise_iff_forall_sublist.2 fun {i j} hij => ?_
    have hkept : Precedes (w.order.filter fun i => catalog.strengthAt? i == some k) i j := hij
    exact ⟨k, k, hclass hkept.mem_left, hclass hkept.mem_right,
      .inr ⟨rfl, (precedes_filter_iff.1 hkept).2.2⟩⟩
  · have hdescending : (Family.all : List Strength).reverse.Pairwise
        fun s t => Family.rank t < Family.rank s := by decide
    refine hdescending.imp fun {s t} hlt i hi j hj => ?_
    exact ⟨s, t, hclass hi, hclass hj, .inl hlt⟩

theorem precedes_sortByStrength_iff (h : Coherent catalog w) (hi : i ∈ w.order)
    (hj : j ∈ w.order) :
    Precedes (w.sortByStrength catalog).order i j ↔ Stronger catalog w.order i j :=
  precedes_iff_of_pairwise (pairwise_order_sortByStrength catalog w)
    (fun _ _ => Stronger.asymm h.nodup) ((mem_order_sortByStrength h).2 hi)
    ((mem_order_sortByStrength h).2 hj)

theorem Coherent.perm_sortByStrength (h : Coherent catalog w) :
    (w.sortByStrength catalog).order.Perm w.order :=
  (List.perm_ext_iff_of_nodup h.sortByStrength.nodup h.nodup).2 fun _ =>
    mem_order_sortByStrength h

/-- The strength at a place as a number; a place outside the catalog is weaker than any suite. -/
def strengthKey (catalog : Catalog) (i : Nat) : Nat :=
  match catalog.strengthAt? i with
  | some s => Family.rank s + 1
  | none => 0

/-- A place may stand in front of one that is not stronger. -/
def mayLead (catalog : Catalog) (i j : Nat) : Bool := strengthKey catalog j ≤ strengthKey catalog i

theorem mayLead_trans (catalog : Catalog) (i j k : Nat) (hij : mayLead catalog i j = true)
    (hjk : mayLead catalog j k = true) : mayLead catalog i k = true :=
  decide_eq_true (Nat.le_trans (of_decide_eq_true hjk) (of_decide_eq_true hij))

theorem mayLead_total (catalog : Catalog) (i j : Nat) :
    (mayLead catalog i j || mayLead catalog j i) = true := by
  simpa [mayLead] using Nat.le_total (strengthKey catalog j) (strengthKey catalog i)

/-- Sorts the order by strength, the strongest first.  The sort is stable. -/
def stableSort (catalog : Catalog) (w : WorkingSet) : WorkingSet :=
  { w with order := w.order.mergeSort (mayLead catalog) }

/-- A stable sort has the strongest places first, and places of one strength as they stood. -/
theorem Coherent.pairwise_order_stableSort (h : Coherent catalog w) :
    (w.stableSort catalog).order.Pairwise (Stronger catalog w.order) := by
  have hperm : (w.stableSort catalog).order.Perm w.order := List.mergeSort_perm _ _
  have hnodup : (w.stableSort catalog).order.Nodup := hperm.nodup_iff.2 h.nodup
  have hsorted : (w.stableSort catalog).order.Pairwise (mayLead catalog · ·) :=
    List.pairwise_mergeSort (mayLead_trans catalog) (mayLead_total catalog) w.order
  have hstrength : ∀ {k : Nat}, k ∈ (w.stableSort catalog).order →
      ∃ s, catalog.strengthAt? k = some s ∧ strengthKey catalog k = Family.rank s + 1 := by
    intro k hk
    have hsuite := List.getElem?_eq_getElem (h.lt_size (hperm.mem_iff.1 hk))
    exact ⟨_, congrArg (Option.map _) hsuite, by simp [strengthKey, Catalog.strengthAt?, hsuite]⟩
  refine List.pairwise_iff_forall_sublist.2 fun {i j} hij => ?_
  have hlead : mayLead catalog i j = true := List.pairwise_iff_forall_sublist.1 hsorted hij
  obtain ⟨s, hs, hkeyi⟩ := hstrength (Precedes.mem_left hij)
  obtain ⟨t, ht, hkeyj⟩ := hstrength (Precedes.mem_right hij)
  have hle : Family.rank t ≤ Family.rank s := by
    simpa [mayLead, hkeyi, hkeyj] using hlead
  refine ⟨s, t, hs, ht, (Nat.lt_or_eq_of_le hle).imp_right fun heq => ?_⟩
  obtain rfl := Family.rank_injective heq
  -- of two places of one strength the sort keeps the one in front that stood in front
  have hne : i ≠ j := by
    rintro rfl
    exact Precedes.asymm hnodup hij hij
  refine ⟨rfl, (precedes_or_precedes (hperm.mem_iff.1 (Precedes.mem_left hij))
    (hperm.mem_iff.1 (Precedes.mem_right hij)) hne).resolve_right fun hji => ?_⟩
  have hback : mayLead catalog j i = true := by simp [mayLead, hkeyi, hkeyj]
  exact Precedes.asymm hnodup hij
    (List.pair_sublist_mergeSort (mayLead_trans catalog) (mayLead_total catalog) hback hji)

/-- **Class by class is the stable sort.** -/
theorem Coherent.stableSort_eq (h : Coherent catalog w) :
    w.stableSort catalog = w.sortByStrength catalog := by
  have hperm : (w.stableSort catalog).order.Perm (w.sortByStrength catalog).order :=
    (List.mergeSort_perm _ _).trans h.perm_sortByStrength.symm
  have horder : (w.stableSort catalog).order = (w.sortByStrength catalog).order :=
    hperm.eq_of_pairwise (fun i j _ _ hij hji => absurd hji (hij.asymm h.nodup))
      h.pairwise_order_stableSort (pairwise_order_sortByStrength catalog w)
  exact congrArg (fun order => { w with order }) horder

theorem stronger_iff {order : List Nat} {s t : Suite} (hs : catalog.suites[i]? = some s)
    (ht : catalog.suites[j]? = some t) :
    Stronger catalog order i j ↔ Family.rank t.strength < Family.rank s.strength ∨
      s.strength = t.strength ∧ Precedes order i j := by
  simp [Stronger, Catalog.strengthAt?, hs, ht]

/-! ### A rule -/

/-- Whether a rule leaves the first of two places in front, where both stay: the class of the rule
or the strength of the suites tells, and otherwise the order that the places had. -/
def Leads (r : Rule) (order : List Nat) (i j : Nat) (s t : Suite) : Prop :=
  match r.operation with
  | .add | .delete | .keepOnly => Precedes order i j
  | .remove | .pushToEnd =>
      r.predicate.accepts s = false ∧ r.predicate.accepts t = true ∨
        r.predicate.accepts s = r.predicate.accepts t ∧ Precedes order i j
  | .sortByStrength =>
      Family.rank t.strength < Family.rank s.strength ∨
        s.strength = t.strength ∧ Precedes order i j

theorem precedes_apply_iff (h : Coherent catalog w) (r : Rule) {s t : Suite}
    (hs : catalog.suites[i]? = some s) (ht : catalog.suites[j]? = some t)
    (hi : i ∈ w.order) (hj : j ∈ w.order) (hi' : i ∈ (w.apply catalog r).order)
    (hj' : j ∈ (w.apply catalog r).order) :
    Precedes (w.apply catalog r).order i j ↔ Leads r w.order i j s t := by
  have hl := catalog.length_hits r.predicate
  have hmoved : Precedes (w.moveToEnd (catalog.hits r.predicate)).order i j ↔
      r.predicate.accepts s = false ∧ r.predicate.accepts t = true ∨
        r.predicate.accepts s = r.predicate.accepts t ∧ Precedes w.order i j := by
    rw [precedes_moveToEnd_iff hi hj, Catalog.flag_hits_of_getElem? hs,
      Catalog.flag_hits_of_getElem? ht]
  unfold WorkingSet.apply at hi' hj' ⊢
  unfold Leads
  cases hop : r.operation with
  | add => exact precedes_add_iff h hl hi hj
  | pushToEnd =>
    rw [← hmoved]
    exact precedes_add_iff h.moveToEnd hl (mem_order_moveToEnd.2 hi) (mem_order_moveToEnd.2 hj)
  | remove => exact hmoved
  | delete =>
    simp only [hop] at hi' hj'
    obtain ⟨-, hi'⟩ := (mem_order_delete h hl).1 hi'
    obtain ⟨-, hj'⟩ := (mem_order_delete h hl).1 hj'
    simp [order_delete h hl, precedes_filter_iff, hi', hj']
  | keepOnly =>
    simp only [hop] at hi' hj'
    obtain ⟨-, hi'⟩ := mem_order_retain.1 hi'
    obtain ⟨-, hj'⟩ := mem_order_retain.1 hj'
    simp [retain, precedes_filter_iff, hi', hj']
  | sortByStrength => rw [← stronger_iff hs ht]; exact precedes_sortByStrength_iff h hi hj

/-- The places that a rule adds stand behind those that stay, in catalog order. -/
theorem exists_order_apply (h : Coherent catalog w) (r : Rule) :
    ∃ kept added, (w.apply catalog r).order = kept ++ added ∧ (∀ i ∈ kept, i ∈ w.order) ∧
      (∀ i ∈ added, i ∉ w.order) ∧ added.Pairwise (· < ·) := by
  have hl := catalog.length_hits r.predicate
  have hadded : ∀ {v : WorkingSet}, Coherent catalog v → (∀ i, i ∈ v.order ↔ i ∈ w.order) →
      ∃ kept added, (v.add (catalog.hits r.predicate)).order = kept ++ added ∧
        (∀ i ∈ kept, i ∈ w.order) ∧ (∀ i ∈ added, i ∉ w.order) ∧ added.Pairwise (· < ·) := by
    intro v hv hmem
    refine ⟨_, _, order_add hv hl, fun i => (hmem i).1, fun i hi => ?_, ?_⟩
    · simp only [List.mem_filter, Bool.and_eq_true, decide_eq_true_iff] at hi
      exact fun hw => hi.2.1 ((hmem i).2 hw)
    · exact (List.pairwise_lt_range.filter _).filter _
  have hsame : ∀ {v : WorkingSet}, (∀ i ∈ v.order, i ∈ w.order) →
      ∃ kept added, v.order = kept ++ added ∧ (∀ i ∈ kept, i ∈ w.order) ∧
        (∀ i ∈ added, i ∉ w.order) ∧ added.Pairwise (· < ·) := fun hmem =>
    ⟨_, [], (List.append_nil _).symm, hmem, fun _ hi => absurd hi List.not_mem_nil, .nil⟩
  unfold WorkingSet.apply
  cases r.operation with
  | add => exact hadded h fun _ => Iff.rfl
  | pushToEnd => exact hadded h.moveToEnd fun _ => mem_order_moveToEnd
  | remove => exact hsame fun _ => mem_order_moveToEnd.1
  | delete => exact hsame fun _ hi => ((mem_order_delete h hl).1 hi).1
  | keepOnly => exact hsame fun _ hi => (mem_order_retain.1 hi).1
  | sortByStrength => exact hsame fun _ => (mem_order_sortByStrength h).1

/-- `later` is what the rule may make of an order, place against place. -/
structure Rearranges (catalog : Catalog) (r : Rule) (order later : List Nat) : Prop where
  /-- Places that stay stand as the rule tells. -/
  kept : ∀ (i j : Nat) (s t : Suite), catalog.suites[i]? = some s → catalog.suites[j]? = some t →
    i ∈ order → j ∈ order → i ∈ later → j ∈ later →
      (Precedes later i j ↔ Leads r order i j s t)
  /-- A sort loses no place and adds none, and leaves no suite in front of a stronger one. -/
  sorted : r.operation = .sortByStrength → later.Perm order ∧
    (later.filterMap (catalog.suites[·]?)).Pairwise fun s t =>
      Family.rank t.strength ≤ Family.rank s.strength
  /-- A new place stands behind every place that stays. -/
  behind : ∀ i j : Nat, i ∈ order → i ∈ later → j ∉ order → j ∈ later → Precedes later i j
  /-- New places stand in catalog order. -/
  ascending : ∀ i j : Nat, i ∉ order → i ∈ later → j ∉ order → j ∈ later →
    (Precedes later i j ↔ i < j)

theorem pairwise_suites_sortByStrength (catalog : Catalog) (w : WorkingSet) :
    ((w.sortByStrength catalog).suites catalog).Pairwise fun s t =>
      Family.rank t.strength ≤ Family.rank s.strength := by
  refine List.pairwise_filterMap.2 ((pairwise_order_sortByStrength catalog w).imp ?_)
  intro i j hij s hs t ht
  rcases (stronger_iff hs ht).1 hij with hlt | ⟨heq, -⟩
  · exact Nat.le_of_lt hlt
  · exact Nat.le_of_eq (by rw [heq])

theorem Coherent.rearranges (h : Coherent catalog w) (r : Rule) :
    Rearranges catalog r w.order (w.apply catalog r).order where
  kept _ _ _ _ := precedes_apply_iff h r
  sorted hop := by
    simp only [WorkingSet.apply, hop]
    exact ⟨h.perm_sortByStrength, pairwise_suites_sortByStrength catalog w⟩
  behind i j hi hi' hj hj' := by
    obtain ⟨kept, added, horder, hkept, hadded, -⟩ := exists_order_apply h r
    rw [horder, List.mem_append] at hi' hj'
    rw [horder, precedes_append_iff]
    exact .inr (.inl ⟨hi'.resolve_right fun hmem => hadded i hmem hi,
      hj'.resolve_left fun hmem => hj (hkept j hmem)⟩)
  ascending i j hi hi' hj hj' := by
    obtain ⟨kept, added, horder, hkept, -, hascending⟩ := exists_order_apply h r
    rw [horder, List.mem_append] at hi' hj'
    have hnew : ∀ k ∉ w.order, k ∈ kept ∨ k ∈ added → k ∉ kept ∧ k ∈ added := fun k hk hmem =>
      ⟨fun hold => hk (hkept k hold), hmem.resolve_left fun hold => hk (hkept k hold)⟩
    obtain ⟨hi, hi'⟩ := hnew i hi hi'
    obtain ⟨-, hj'⟩ := hnew j hj hj'
    rw [horder, precedes_append_iff,
      precedes_iff_of_pairwise hascending (fun _ _ => Nat.lt_asymm) hi' hj']
    -- a new place is none of those that stay, so the pair stands among the new ones
    have hstay : ¬ Precedes kept i j := fun hij => hi hij.mem_left
    simp [hi, hstay]

/-- **What one rule does to the order of preference.**  Whatever rules a working set was reached by,
a further rule rearranges its order place against place: adding, deleting and keeping leave the
places that stay in their order; moving to the end puts those of the class behind the others;
sorting puts the stronger ones first; and what is new comes last, in catalog order. -/
theorem rearranges_after (catalog : Catalog) (rules : List Rule) (r : Rule) :
    Rearranges catalog r (after catalog rules).order (after catalog (rules ++ [r])).order := by
  rw [after_concat]
  exact (coherent_after catalog rules).rearranges r

/-- Strong suites, then those with a key exchange by RSA pushed to the end: the first strong suite
has such a key exchange and falls behind the second one, and the suites that are not strong come
last. -/
theorem rearranges_after_push :
    Precedes (after Catalog.builtin [⟨.add, .strength [.high]⟩]).order 19 20 ∧
    Precedes (after Catalog.builtin
      [⟨.add, .strength [.high]⟩, ⟨.pushToEnd, .keyExchange [.rsa]⟩]).order 20 19 ∧
    Precedes (after Catalog.builtin
      [⟨.add, .strength [.high]⟩, ⟨.pushToEnd, .keyExchange [.rsa]⟩]).order 19 0 ∧
    Precedes (after Catalog.builtin
      [⟨.add, .strength [.high]⟩, ⟨.pushToEnd, .keyExchange [.rsa]⟩]).order 0 33 := by
  have h := rearranges_after Catalog.builtin [⟨.add, .strength [.high]⟩]
    ⟨.pushToEnd, .keyExchange [.rsa]⟩
  have hmoved := h.kept 20 19 _ _ rfl rfl (by decide +kernel) (by decide +kernel)
    (by decide +kernel) (by decide +kernel)
  refine ⟨by decide +kernel, hmoved.2 (.inl ⟨by decide +kernel, by decide +kernel⟩), ?_, ?_⟩
  · exact h.behind 19 0 (by decide +kernel) (by decide +kernel) (by decide +kernel)
      (by decide +kernel)
  · exact (h.ascending 0 33 (by decide +kernel) (by decide +kernel) (by decide +kernel)
      (by decide +kernel)).2 (by decide)

end CipherRules.WorkingSet
