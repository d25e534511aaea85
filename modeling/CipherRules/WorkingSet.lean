import CipherRules.Catalog
import CipherRules.Rule

/-!
# Working sets

The state of a selection while rules are applied to it.  Suites are known by their places in the
catalog.  `order` lists the selected places, the first choice first; `present` and `excluded` hold
one flag for each place of the catalog: whether it is selected, and whether it was deleted and may
not come back.

`WorkingSet.apply` is the effect of one rule, `WorkingSet.applyAll` that of a list of rules.
-/

namespace CipherRules

/-- The selected places in order, with a flag for each place that is selected, and for each that
is out for good. -/
structure WorkingSet where
  order : List Nat
  present : List Bool
  excluded : List Bool
  deriving DecidableEq

/-- For each suite of the catalog, whether the predicate accepts it. -/
def Catalog.hits (catalog : Catalog) (p : Predicate) : List Bool := catalog.suites.map p.accepts

/-- The strength class of the suite at a place. -/
def Catalog.strengthAt? (catalog : Catalog) (i : Nat) : Option Strength :=
  catalog.suites[i]?.map (·.strength)

namespace WorkingSet

/-- The flag of a place; places outside the catalog have none set. -/
def flag (flags : List Bool) (i : Nat) : Bool := flags.getD i false

/-- The places whose flag is set, in catalog order. -/
def places (flags : List Bool) : List Nat := (List.range flags.length).filter (flag flags)

/-- Nothing selected, nothing excluded. -/
def start (catalog : Catalog) : WorkingSet where
  order := []
  present := List.replicate catalog.size false
  excluded := List.replicate catalog.size false

/-- The flags of the places that are hit and neither selected nor excluded. -/
def fresh (w : WorkingSet) (hits : List Bool) : List Bool :=
  List.zipWith (fun free hit => free && hit)
    (List.zipWith (fun present excluded => !present && !excluded) w.present w.excluded) hits

/-- Appends the places that are hit and neither selected nor excluded, in catalog order. -/
def add (w : WorkingSet) (hits : List Bool) : WorkingSet :=
  { w with
    order := w.order ++ places (w.fresh hits)
    present := List.zipWith (· || ·) w.present (w.fresh hits) }

/-- Moves the selected places that are hit behind the others, both in the order they had. -/
def moveToEnd (w : WorkingSet) (hits : List Bool) : WorkingSet :=
  { w with
    order := (w.order.filter fun i => !flag hits i) ++ w.order.filter (flag hits) }

/-- Drops the selected places that are not to be kept. -/
def retain (w : WorkingSet) (keep : List Bool) : WorkingSet :=
  { w with
    order := w.order.filter (flag keep)
    present := List.zipWith (· && ·) w.present keep }

/-- Excludes the places that are hit, and drops the excluded ones. -/
def delete (w : WorkingSet) (hits : List Bool) : WorkingSet :=
  let excluded := List.zipWith (· || ·) w.excluded hits
  { w with excluded }.retain (excluded.map (!·))

/-- Lists the selected places class by class, the strongest first, each class in the order that it
had.  This is a stable sort of the order by strength, as far as the order holds places of the
catalog; a place outside has no class. -/
def sortByStrength (catalog : Catalog) (w : WorkingSet) : WorkingSet :=
  { w with
    order := (Family.all : List Strength).reverse.flatMap fun s =>
      w.order.filter fun i => catalog.strengthAt? i == some s }

/-- The effect of a rule. -/
def apply (catalog : Catalog) (w : WorkingSet) (r : Rule) : WorkingSet :=
  let hits := catalog.hits r.predicate
  match r.operation with
  | .add            => w.add hits
  | .pushToEnd      => (w.moveToEnd hits).add hits
  | .remove         => w.moveToEnd hits
  | .delete         => w.delete hits
  | .keepOnly       => w.retain hits
  | .sortByStrength => w.sortByStrength catalog

/-- The effect of rules, one after the other. -/
def applyAll (catalog : Catalog) (w : WorkingSet) (rules : List Rule) : WorkingSet :=
  rules.foldl (apply catalog) w

/-- The suites selected, the first choice first. -/
def suites (catalog : Catalog) (w : WorkingSet) : List Suite :=
  w.order.filterMap (catalog.suites[·]?)

end WorkingSet

end CipherRules
