import CipherRules.Suite

/-!
# Catalogs

A catalog is a list of suites no two of which share a name.  Its order is the canonical order of
selections.  `Catalog.ofSuites?` accepts exactly the lists with that property
(`firstClash?_eq_none_iff`) and names a shared name otherwise; `Catalog.indexOf?` finds the place
of a suite under either of its names.
-/

namespace CipherRules

/-- Why a list of suites is no catalog. -/
inductive CatalogError where
  /-- Two suites of the list have this name. -/
  | sharedName (name : Text)
  deriving DecidableEq

namespace CatalogError

/-- The wording of the error. -/
def message : CatalogError → Text
  | sharedName name => .of "Duplicate catalog entry: " ++ name

end CatalogError

/-- Two suites of which one has a name of the other. -/
def Suite.SharesName (a b : Suite) : Prop := ∃ n ∈ b.names, n ∈ a.names

instance (a b : Suite) : Decidable (a.SharesName b) :=
  inferInstanceAs (Decidable (∃ n ∈ b.names, n ∈ a.names))

/-- Suites in canonical order, with every name used once. -/
structure Catalog where
  /-- The suites in canonical order. -/
  suites : List Suite
  /-- No suite has a name of another. -/
  names_unique : suites.Pairwise fun a b => ¬ a.SharesName b

namespace Catalog

/-- The first name, in reading order, that a suite shares with an earlier one. -/
def firstClash? (earlier : List Suite) : List Suite → Option Text
  | [] => none
  | s :: rest =>
      match s.names.find? fun n => earlier.any (·.hasName n) with
      | some n => some n
      | none => firstClash? (earlier ++ [s]) rest

theorem find?_names_eq_none_iff {earlier : List Suite} {s : Suite} :
    (s.names.find? fun n => earlier.any (·.hasName n)) = none ↔
      ∀ a ∈ earlier, ¬ a.SharesName s := by
  simp only [List.find?_eq_none, List.any_eq_true, Suite.hasName_iff, Suite.SharesName,
    not_exists, not_and]
  exact ⟨fun h a ha n hs hn => h n hs a ha hn, fun h n hs a ha hn => h a ha n hs hn⟩

/-- There is no clash exactly when no two suites share a name. -/
theorem firstClash?_eq_none_iff {earlier suites : List Suite} :
    firstClash? earlier suites = none ↔
      (∀ a ∈ earlier, ∀ b ∈ suites, ¬ a.SharesName b) ∧
        suites.Pairwise fun a b => ¬ a.SharesName b := by
  induction suites generalizing earlier with
  | nil => simp [firstClash?]
  | cons s rest ih =>
    unfold firstClash?
    split
    · rename_i n hn
      refine ⟨fun h => absurd h (by simp), fun h => ?_⟩
      have hnone := find?_names_eq_none_iff.2 fun a ha => h.1 a ha s List.mem_cons_self
      exact absurd (hn.symm.trans hnone) (by simp)
    · rename_i hn
      have hs := find?_names_eq_none_iff.1 hn
      rw [ih, List.pairwise_cons]
      constructor
      · rintro ⟨h₁, h₂⟩
        refine ⟨fun a ha b hb => ?_, fun b hb => h₁ s (by simp) b hb, h₂⟩
        rcases List.mem_cons.1 hb with rfl | hb
        · exact hs a ha
        · exact h₁ a (List.mem_append_left _ ha) b hb
      · rintro ⟨h₁, h₂, h₃⟩
        refine ⟨fun a ha b hb => ?_, h₃⟩
        rcases List.mem_append.1 ha with ha | ha
        · exact h₁ a ha b (List.mem_cons_of_mem _ hb)
        · exact (List.mem_singleton.1 ha) ▸ h₂ b hb

/-- The catalog of a list of suites, or the first name that two of them share. -/
def ofSuites? (suites : List Suite) : Except CatalogError Catalog :=
  match h : firstClash? [] suites with
  | some n => .error (.sharedName n)
  | none => .ok ⟨suites, (firstClash?_eq_none_iff.1 h).2⟩

/-- The number of suites. -/
def size (catalog : Catalog) : Nat := catalog.suites.length

/-- The place of the suite with a name, counted from zero. -/
def indexOf? (catalog : Catalog) (n : Text) : Option Nat :=
  catalog.suites.findIdx? (·.hasName n)

/-- The suite with a name. -/
def lookup? (catalog : Catalog) (n : Text) : Option Suite :=
  catalog.suites.find? (·.hasName n)

end Catalog

end CipherRules
