import CipherRules.Proofs.Catalog.Names
import CipherRules.Proofs.WorkingSet.Coherent
import Mathlib.Data.List.Basic

/-!
# Working sets — Choices

A run told in suites, without places and flags.  A `Choice` has the suites that are chosen, in their
order, and knows which suites are deleted; the catalog takes part in it only where suites are added.

* `Shows.apply`, `shows_after`: a coherent working set shows a choice, and goes on to show it under
  each rule.  So the suites in the working set that rules reach are those of the choice that they
  reach (`suites_after`).
* `Choice.keep_apply`, `Choice.after_filter`: dropping suites from a choice and applying a rule
  commute, if the rule adds none of the suites dropped.
* `Choice.add_name`, `Choice.after_additions`: suites that are added by name, one after the other,
  are chosen in that order.
-/

namespace CipherRules

/-- The suites that are chosen, the first choice first, and for each suite whether it is deleted. -/
structure Choice where
  chosen : List Suite
  deleted : Suite → Bool

namespace Choice

/-- Nothing chosen, nothing deleted. -/
def start : Choice := ⟨[], fun _ => false⟩

/-- Appends those of the suites that the class has and that are neither chosen nor deleted. -/
def add (suites : List Suite) (c : Choice) (p : Predicate) : Choice :=
  { c with chosen := c.chosen ++ (suites.filter p.accepts).filter fun s =>
      decide (s ∉ c.chosen) && !c.deleted s }

/-- Moves the suites of the class behind the others. -/
def moveToEnd (c : Choice) (p : Predicate) : Choice :=
  { c with chosen := (c.chosen.filter fun s => !p.accepts s) ++ c.chosen.filter p.accepts }

/-- Drops the suites that are not in the class. -/
def retain (c : Choice) (p : Predicate) : Choice :=
  { c with chosen := c.chosen.filter p.accepts }

/-- Drops the suites of the class, for good. -/
def delete (c : Choice) (p : Predicate) : Choice where
  chosen := c.chosen.filter fun s => !p.accepts s
  deleted s := c.deleted s || p.accepts s

/-- Lists the suites by strength, the strongest first. -/
def sortByStrength (c : Choice) : Choice :=
  { c with chosen := (Family.all : List Strength).reverse.flatMap fun k =>
      c.chosen.filter fun s => s.strength == k }

/-- The effect of a rule, where there are these suites to add. -/
def apply (suites : List Suite) (c : Choice) (r : Rule) : Choice :=
  match r.operation with
  | .add            => c.add suites r.predicate
  | .pushToEnd      => (c.moveToEnd r.predicate).add suites r.predicate
  | .remove         => c.moveToEnd r.predicate
  | .delete         => c.delete r.predicate
  | .keepOnly       => c.retain r.predicate
  | .sortByStrength => c.sortByStrength

/-- The choice that rules make, where there are these suites to add. -/
def after (suites : List Suite) (rules : List Rule) : Choice :=
  rules.foldl (apply suites) start

end Choice

namespace WorkingSet

variable {catalog : Catalog} {w : WorkingSet} {c : Choice}

/-! ### Places and suites -/

/-- Dropping places drops the suites there. -/
theorem filterMap_filter_getElem? {order : List Nat} {f : Nat → Bool} {g : Suite → Bool}
    (h : ∀ i ∈ order, ∀ s, catalog.suites[i]? = some s → f i = g s) :
    (order.filter f).filterMap (catalog.suites[·]?) =
      (order.filterMap (catalog.suites[·]?)).filter g := by
  rw [List.filter_filterMap, List.filterMap_filter]
  refine List.filterMap_congr fun i hi => ?_
  cases hs : catalog.suites[i]? with
  | none => simp
  | some s => cases hg : g s <;> simp [h i hi s hs, hg, Option.filter]

theorem filterMap_range_getElem? (catalog : Catalog) :
    (List.range catalog.size).filterMap (catalog.suites[·]?) = catalog.suites := by
  have hall : (List.range catalog.size).map (catalog.suites[·]?) = catalog.suites.map some := by
    refine List.ext_getElem (by simp [Catalog.size]) fun i hi _ => ?_
    have hlt : i < catalog.suites.length := by simpa [Catalog.size] using hi
    simp [hlt]
  have hsome := congrArg (List.filterMap id) hall
  simpa [List.filterMap_map] using hsome

/-- The suites at the places that a class hits are those of the class. -/
theorem filterMap_places_hits (catalog : Catalog) (p : Predicate) :
    (places (catalog.hits p)).filterMap (catalog.suites[·]?) = catalog.suites.filter p.accepts := by
  rw [places, Catalog.length_hits, filterMap_filter_getElem? (g := p.accepts),
    filterMap_range_getElem?]
  intro i _ s hs
  exact Catalog.flag_hits_of_getElem? hs p

/-- A suite of the catalog is among those of an order exactly if its place is in the order. -/
theorem mem_suites_iff {i : Nat} {s : Suite} (hs : catalog.suites[i]? = some s) :
    s ∈ w.suites catalog ↔ i ∈ w.order := by
  rw [suites, List.mem_filterMap]
  constructor
  · rintro ⟨j, hj, hsj⟩
    have hname : s.name ∈ s.names := List.mem_cons_self
    rwa [Catalog.place_unique hs hsj hname hname]
  · intro hi
    exact ⟨i, hi, hs⟩

/-! ### The choice that a working set shows -/

/-- The suites at the places of the order are those that are chosen, and the excluded places are
those of the suites that are deleted. -/
structure Shows (catalog : Catalog) (w : WorkingSet) (c : Choice) : Prop where
  suites : w.suites catalog = c.chosen
  excluded : ∀ (i : Nat) (s : Suite), catalog.suites[i]? = some s →
    flag w.excluded i = c.deleted s

theorem shows_start (catalog : Catalog) : Shows catalog (start catalog) .start where
  suites := rfl
  excluded _ _ _ := flag_replicate_false _ _

namespace Shows

theorem add (h : Shows catalog w c) (hw : Coherent catalog w) (p : Predicate) :
    Shows catalog (w.add (catalog.hits p)) (c.add catalog.suites p) where
  suites := by
    have hfree : ∀ i ∈ places (catalog.hits p), ∀ s, catalog.suites[i]? = some s →
        (decide (i ∉ w.order) && !flag w.excluded i) =
          (decide (s ∉ c.chosen) && !c.deleted s) := by
      intro i _ s hs
      have hmem : i ∈ w.order ↔ s ∈ c.chosen := by rw [← h.suites, mem_suites_iff hs]
      simp only [hmem, h.excluded i s hs]
    rw [WorkingSet.suites, order_add hw (catalog.length_hits p), List.filterMap_append,
      filterMap_filter_getElem? hfree, filterMap_places_hits]
    exact congrArg (· ++ _) h.suites
  excluded := h.excluded

/-- Places that are left in the order as their suites are left in the choice. -/
theorem filterMap_filter (h : Shows catalog w c) {f : Nat → Bool} {g : Suite → Bool}
    (hfg : ∀ (i : Nat) (s : Suite), catalog.suites[i]? = some s → f i = g s) :
    (w.order.filter f).filterMap (catalog.suites[·]?) = c.chosen.filter g := by
  rw [← h.suites]
  exact filterMap_filter_getElem? fun i _ => hfg i

theorem moveToEnd (h : Shows catalog w c) (p : Predicate) :
    Shows catalog (w.moveToEnd (catalog.hits p)) (c.moveToEnd p) where
  suites := by
    have hmoved := h.filterMap_filter fun i s hs => Catalog.flag_hits_of_getElem? hs p
    have hkept := h.filterMap_filter fun i s hs =>
      congrArg (!·) (Catalog.flag_hits_of_getElem? hs p)
    rw [WorkingSet.suites, WorkingSet.moveToEnd, List.filterMap_append, hmoved, hkept]
    rfl
  excluded := h.excluded

theorem retain (h : Shows catalog w c) (p : Predicate) :
    Shows catalog (w.retain (catalog.hits p)) (c.retain p) where
  suites := h.filterMap_filter fun _ _ hs => Catalog.flag_hits_of_getElem? hs p
  excluded := h.excluded

theorem delete (h : Shows catalog w c) (hw : Coherent catalog w) (p : Predicate) :
    Shows catalog (w.delete (catalog.hits p)) (c.delete p) where
  suites := by
    rw [WorkingSet.suites, order_delete hw (catalog.length_hits p)]
    exact h.filterMap_filter fun _ _ hs => congrArg (!·) (Catalog.flag_hits_of_getElem? hs p)
  excluded i s hs := by
    rw [flag_excluded_delete hw (catalog.length_hits p), h.excluded i s hs,
      Catalog.flag_hits_of_getElem? hs]
    rfl

theorem sortByStrength (h : Shows catalog w c) :
    Shows catalog (w.sortByStrength catalog) c.sortByStrength where
  suites := by
    have hclass (k : Strength) :
        (w.order.filter fun i => catalog.strengthAt? i == some k).filterMap (catalog.suites[·]?) =
          c.chosen.filter fun s => s.strength == k :=
      h.filterMap_filter fun i s hs => by simp [Catalog.strengthAt?, hs]
    simp only [WorkingSet.suites, WorkingSet.sortByStrength, List.filterMap_flatMap, hclass]
    rfl
  excluded := h.excluded

/-- **A working set goes on to show its choice.** -/
theorem apply (h : Shows catalog w c) (hw : Coherent catalog w) (r : Rule) :
    Shows catalog (w.apply catalog r) (c.apply catalog.suites r) := by
  unfold WorkingSet.apply Choice.apply
  cases r.operation with
  | add => exact h.add hw _
  | pushToEnd => exact (h.moveToEnd _).add hw.moveToEnd _
  | remove => exact h.moveToEnd _
  | delete => exact h.delete hw _
  | keepOnly => exact h.retain _
  | sortByStrength => exact h.sortByStrength

theorem applyAll (h : Shows catalog w c) (hw : Coherent catalog w) (rules : List Rule) :
    Shows catalog (w.applyAll catalog rules) (rules.foldl (Choice.apply catalog.suites) c) := by
  induction rules generalizing w c with
  | nil => exact h
  | cons r rest ih => exact ih (h.apply hw r) (hw.apply r)

end Shows

theorem shows_after (catalog : Catalog) (rules : List Rule) :
    Shows catalog (after catalog rules) (.after catalog.suites rules) :=
  (shows_start catalog).applyAll (coherent_start catalog) rules

/-- The suites in the working set that rules reach are those of the choice that they make. -/
theorem suites_after (catalog : Catalog) (rules : List Rule) :
    (after catalog rules).suites catalog = (Choice.after catalog.suites rules).chosen :=
  (shows_after catalog rules).suites

end WorkingSet

/-! ### Fewer suites -/

namespace Choice

/-- The choice without the suites that are not to be kept. -/
def keep (f : Suite → Bool) (c : Choice) : Choice := { c with chosen := c.chosen.filter f }

variable {f : Suite → Bool} {c : Choice}

theorem keep_add (suites : List Suite) (p : Predicate) :
    (c.add suites p).keep f = (c.keep f).add (suites.filter f) p := by
  simp only [keep, add, List.filter_append, List.filter_filter]
  congr 2
  refine List.filter_congr fun s _ => ?_
  -- a suite that is kept is chosen in both choices or in neither
  cases hs : f s <;> simp [hs]

theorem keep_moveToEnd (p : Predicate) : (c.moveToEnd p).keep f = (c.keep f).moveToEnd p := by
  simp only [keep, moveToEnd, List.filter_append]
  rw [List.filter_comm f, List.filter_comm f]

/-- **Dropping suites commutes with a rule** that adds none of the suites dropped. -/
theorem keep_apply (suites : List Suite) (r : Rule) :
    (c.apply suites r).keep f = (c.keep f).apply (suites.filter f) r := by
  unfold apply
  cases r.operation with
  | add => exact keep_add suites _
  | pushToEnd => rw [← keep_moveToEnd]; exact keep_add suites _
  | remove => exact keep_moveToEnd _
  | delete => simp only [keep, delete, List.filter_comm f]
  | keepOnly => simp only [keep, retain, List.filter_comm f]
  | sortByStrength => simp only [keep, sortByStrength, List.filter_flatMap, List.filter_comm f]

/-- From fewer suites rules choose what they choose from all, without the suites left out. -/
theorem after_filter (f : Suite → Bool) (suites : List Suite) (rules : List Rule) :
    after (suites.filter f) rules = (after suites rules).keep f := by
  have hrun : ∀ c : Choice, rules.foldl (apply (suites.filter f)) (c.keep f) =
      (rules.foldl (apply suites) c).keep f := by
    induction rules with
    | nil => exact fun _ => rfl
    | cons r rest ih =>
      intro c
      rw [List.foldl_cons, ← keep_apply]
      exact ih _
  exact hrun start

end Choice

/-! ### Suites added by name -/

/-- The rules that add suites by their standard names, one after the other. -/
def Rule.additions (suites : List Suite) : List Rule := suites.map fun s => ⟨.add, .name [s.name]⟩

namespace Choice

variable {catalog : Catalog} {c : Choice}

/-- A suite that is neither chosen nor deleted is appended under its name. -/
theorem add_name {s : Suite} (hs : s ∈ catalog.suites) (hnew : s ∉ c.chosen)
    (hfree : c.deleted s = false) :
    c.add catalog.suites (.name [s.name]) = { c with chosen := c.chosen ++ [s] } := by
  rw [add, Catalog.filter_accepts_name hs]
  simp [hnew, hfree]

theorem foldl_additions {suites : List Suite} (hmem : ∀ s ∈ suites, s ∈ catalog.suites)
    (hnodup : (c.chosen ++ suites).Nodup) (hfree : ∀ s ∈ suites, c.deleted s = false) :
    (Rule.additions suites).foldl (apply catalog.suites) c =
      { c with chosen := c.chosen ++ suites } := by
  induction suites generalizing c with
  | nil => rw [List.append_nil]; rfl
  | cons s rest ih =>
    have hs : s ∈ catalog.suites := hmem s List.mem_cons_self
    have hnew : s ∉ c.chosen := fun hchosen =>
      (List.nodup_append.1 hnodup).2.2 s hchosen s List.mem_cons_self rfl
    have hstep : c.apply catalog.suites ⟨.add, .name [s.name]⟩ =
        { c with chosen := c.chosen ++ [s] } := add_name hs hnew (hfree s List.mem_cons_self)
    rw [List.append_cons] at hnodup
    have hrest := ih (c := { c with chosen := c.chosen ++ [s] })
      (fun t ht => hmem t (List.mem_cons_of_mem s ht)) hnodup
      fun t ht => hfree t (List.mem_cons_of_mem s ht)
    rw [Rule.additions, List.map_cons, List.foldl_cons, hstep, List.append_cons c.chosen s rest]
    exact hrest

/-- **Different suites, added one after the other, are chosen in that order.** -/
theorem after_additions {suites : List Suite} (hmem : ∀ s ∈ suites, s ∈ catalog.suites)
    (hnodup : suites.Nodup) :
    (after catalog.suites (Rule.additions suites)).chosen = suites :=
  congrArg chosen (foldl_additions (c := start) hmem hnodup fun _ _ => rfl)

end Choice

end CipherRules
