import CipherRules.Suite.Attribute

/-!
# Value sets

Finite sets of attribute values.  A set keeps its values in ascending order without repetition,
so that it has one representation only: sets with the same members are equal (`ValueSet.ext`),
in whatever order and however often the members were given (`ValueSet.mem_ofList`).
-/

namespace CipherRules

/-- Values that have a sort key, which tells them apart, and a written form. -/
class Value (α : Type) where
  /-- Values are sorted by their keys, compared from the left. -/
  key : α → List Nat
  /-- How a value is written. -/
  label : α → Text
  /-- Values of one key are the same. -/
  key_injective : ∀ {a b : α}, key a = key b → a = b

/-- The values of a family are sorted by their place in it. -/
instance {α : Type} [DecidableEq α] [Family α] : Value α where
  key a := [Family.rank a]
  label := Family.label
  key_injective h := Family.rank_injective (List.cons.inj h).1

/-- Names are sorted by their characters, which is the order of their bytes in UTF-8. -/
instance : Value Text where
  key t := t.map Char.toNat
  label t := t
  key_injective h := (List.map_inj_right fun _ _ => Char.toNat_inj.1).1 h

/-- A finite set of values, in ascending order. -/
structure ValueSet (α : Type) [Value α] where
  /-- The members in ascending order. -/
  values : List α
  /-- Each member is below those after it. -/
  ascending : values.Pairwise fun a b => Value.key a < Value.key b

namespace ValueSet

variable {α : Type} [Value α]

theorem eq_of_values_eq {s t : ValueSet α} (h : s.values = t.values) : s = t := by
  cases s
  cases t
  cases h
  rfl

instance [DecidableEq α] : DecidableEq (ValueSet α) := fun s t =>
  decidable_of_iff (s.values = t.values) ⟨eq_of_values_eq, congrArg values⟩

instance : Membership α (ValueSet α) := ⟨fun s a => a ∈ s.values⟩

instance [DecidableEq α] (a : α) (s : ValueSet α) : Decidable (a ∈ s) :=
  inferInstanceAs (Decidable (a ∈ s.values))

/-- The set without members. -/
def empty : ValueSet α := ⟨[], .nil⟩

/-- Puts a value in its place in an ascending list, unless it is there. -/
def place (a : α) : List α → List α
  | [] => [a]
  | b :: rest =>
      if Value.key a < Value.key b then a :: b :: rest
      else if Value.key b < Value.key a then b :: place a rest
      else b :: rest

theorem eq_of_key_not_lt {a b : α} (hab : ¬ Value.key a < Value.key b)
    (hba : ¬ Value.key b < Value.key a) : a = b := by
  rcases Std.lt_trichotomy (Value.key a) (Value.key b) with h | h | h
  · exact absurd h hab
  · exact Value.key_injective h
  · exact absurd h hba

theorem mem_place {x a : α} {l : List α} : x ∈ place a l ↔ x = a ∨ x ∈ l := by
  induction l with
  | nil => simp [place]
  | cons b rest ih =>
    unfold place
    split
    · simp
    · split
      · simp only [List.mem_cons, ih]
        constructor
        · rintro (h | h | h) <;> simp [h]
        · rintro (h | h | h) <;> simp [h]
      · rename_i hab hba
        simp [eq_of_key_not_lt hab hba]

theorem ascending_place {a : α} {l : List α}
    (h : l.Pairwise fun x y => Value.key x < Value.key y) :
    (place a l).Pairwise fun x y => Value.key x < Value.key y := by
  induction l with
  | nil => simp [place]
  | cons b rest ih =>
    have ⟨hb, hrest⟩ := List.pairwise_cons.1 h
    unfold place
    split
    · rename_i hab
      refine List.pairwise_cons.2 ⟨fun x hx => ?_, h⟩
      rcases List.mem_cons.1 hx with rfl | hx
      · exact hab
      · exact List.lt_trans hab (hb x hx)
    · split
      · rename_i hba
        refine List.pairwise_cons.2 ⟨fun x hx => ?_, ih hrest⟩
        rcases mem_place.1 hx with rfl | hx
        · exact hba
        · exact hb x hx
      · exact h

/-- The set with one more member. -/
def insert (a : α) (s : ValueSet α) : ValueSet α :=
  ⟨place a s.values, ascending_place s.ascending⟩

/-- The set of the values in a list. -/
def ofList (l : List α) : ValueSet α := l.foldr insert empty

/-- The set with one member. -/
def singleton (a : α) : ValueSet α := ofList [a]

@[simp] theorem not_mem_empty {x : α} : ¬ x ∈ (empty : ValueSet α) := List.not_mem_nil

@[simp] theorem mem_insert {x a : α} {s : ValueSet α} : x ∈ s.insert a ↔ x = a ∨ x ∈ s :=
  mem_place

/-- Membership in the set of a list is membership in the list. -/
@[simp] theorem mem_ofList {x : α} {l : List α} : x ∈ ofList l ↔ x ∈ l := by
  induction l with
  | nil => simp [ofList]
  | cons a l ih => simp [ofList, show x ∈ l.foldr insert empty ↔ x ∈ l from ih]

@[simp] theorem mem_singleton {x a : α} : x ∈ singleton a ↔ x = a := by simp [singleton]

@[simp] theorem values_singleton (a : α) : (singleton a).values = [a] := rfl

/-- Two ascending lists with the same members are equal. -/
theorem eq_of_ascending : ∀ {l m : List α},
    (l.Pairwise fun x y => Value.key x < Value.key y) →
    (m.Pairwise fun x y => Value.key x < Value.key y) → (∀ x, x ∈ l ↔ x ∈ m) → l = m
  | [], [], _, _, _ => rfl
  | [], b :: _, _, _, h => absurd ((h b).2 List.mem_cons_self) List.not_mem_nil
  | a :: _, [], _, _, h => absurd ((h a).1 List.mem_cons_self) List.not_mem_nil
  | a :: l, b :: m, hl, hm, h => by
    have ⟨ha, hl'⟩ := List.pairwise_cons.1 hl
    have ⟨hb, hm'⟩ := List.pairwise_cons.1 hm
    have hab : a = b := by
      rcases List.mem_cons.1 ((h a).1 List.mem_cons_self) with e | e
      · exact e
      · rcases List.mem_cons.1 ((h b).2 List.mem_cons_self) with e' | e'
        · exact e'.symm
        · exact absurd (List.lt_trans (ha b e') (hb a e)) (List.lt_irrefl _)
    subst hab
    refine congrArg (a :: ·) (eq_of_ascending hl' hm' fun x => ?_)
    constructor
    · intro hx
      rcases List.mem_cons.1 ((h x).1 (List.mem_cons_of_mem _ hx)) with e | e
      · exact absurd (e ▸ ha x hx) (List.lt_irrefl _)
      · exact e
    · intro hx
      rcases List.mem_cons.1 ((h x).2 (List.mem_cons_of_mem _ hx)) with e | e
      · exact absurd (e ▸ hb x hx) (List.lt_irrefl _)
      · exact e

/-- Sets with the same members are equal. -/
theorem ext {s t : ValueSet α} (h : ∀ x, x ∈ s ↔ x ∈ t) : s = t :=
  eq_of_values_eq (eq_of_ascending s.ascending t.ascending h)

/-- The written forms of the members, in ascending order. -/
def labels (s : ValueSet α) : List Text := s.values.map Value.label

/-- True of a set that holds every value of its family. -/
def coversFamily [DecidableEq α] [Family α] (s : ValueSet α) : Bool :=
  (Family.all : List α).all fun a => a ∈ s

/-- True of a set without members. -/
def isEmpty (s : ValueSet α) : Bool := s.values.isEmpty

end ValueSet

end CipherRules
