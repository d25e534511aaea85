import CipherRules.Catalog
import CipherRules.Predicate

/-!
# Catalogs — Names

A name, of either kind, stands for one suite of a catalog: two places with a common name are the
same place (`place_unique`), so looking a name up finds the suite that has it, and only that
(`lookup?_eq_some_iff`), and the class of a standard name has one suite (`filter_accepts_name`).
-/

namespace CipherRules.Catalog

variable {catalog : Catalog}

/-- Two places with a common name are the same. -/
theorem place_unique {i j : Nat} {a b : Suite} {n : Text} (ha : catalog.suites[i]? = some a)
    (hb : catalog.suites[j]? = some b) (hna : n ∈ a.names) (hnb : n ∈ b.names) : i = j := by
  obtain ⟨hi, rfl⟩ := List.getElem?_eq_some_iff.1 ha
  obtain ⟨hj, rfl⟩ := List.getElem?_eq_some_iff.1 hb
  have unique := List.pairwise_iff_getElem.1 catalog.names_unique
  rcases Nat.lt_trichotomy i j with h | h | h
  · exact absurd ⟨n, hnb, hna⟩ (unique i j hi hj h)
  · exact h
  · exact absurd ⟨n, hna, hnb⟩ (unique j i hj hi h)

theorem mem_names_of_lookup? {n : Text} {s : Suite} (h : catalog.lookup? n = some s) :
    n ∈ s.names := by
  unfold lookup? at h
  have hname := List.find?_some h
  exact Suite.hasName_iff.1 hname

/-- Looking a name up finds the suite that has it. -/
theorem lookup?_eq_some_iff {n : Text} {s : Suite} :
    catalog.lookup? n = some s ↔ s ∈ catalog.suites ∧ n ∈ s.names := by
  constructor
  · intro h
    exact ⟨List.mem_of_find?_eq_some h, mem_names_of_lookup? h⟩
  · rintro ⟨hs, hn⟩
    have hsome : (catalog.lookup? n).isSome = true :=
      List.find?_isSome.2 ⟨s, hs, Suite.hasName_iff.2 hn⟩
    obtain ⟨t, ht⟩ := Option.isSome_iff_exists.1 hsome
    obtain ⟨i, hi⟩ := List.getElem?_of_mem hs
    obtain ⟨j, hj⟩ := List.getElem?_of_mem (List.mem_of_find?_eq_some ht)
    have hij : i = j := place_unique hi hj hn (mem_names_of_lookup? ht)
    rw [hij, hj] at hi
    rw [ht, hi]

theorem lookup?_name {s : Suite} (hs : s ∈ catalog.suites) : catalog.lookup? s.name = some s :=
  lookup?_eq_some_iff.2 ⟨hs, List.mem_cons_self⟩

theorem nodup_suites (catalog : Catalog) : catalog.suites.Nodup := by
  refine List.Pairwise.imp (fun hdistinct heq => ?_) catalog.names_unique
  subst heq
  exact hdistinct ⟨_, List.mem_cons_self, List.mem_cons_self⟩

/-! ### The class of a name -/

theorem accepts_name_iff {s t : Suite} (hs : s ∈ catalog.suites) (ht : t ∈ catalog.suites) :
    (Predicate.name [s.name]).accepts t = true ↔ t = s := by
  have hname : (Predicate.name [s.name]).accepts t = true ↔ t.name = s.name := by
    simp [Predicate.name, Predicate.accepts, Condition.accepts]
  rw [hname]
  constructor
  · intro heq
    have hlookup := lookup?_name ht
    rw [heq, lookup?_name hs] at hlookup
    exact (Option.some.inj hlookup).symm
  · rintro rfl
    rfl

/-- The class of a standard name has one suite of the catalog. -/
theorem filter_accepts_name {s : Suite} (hs : s ∈ catalog.suites) :
    catalog.suites.filter (Predicate.name [s.name]).accepts = [s] := by
  have honly : catalog.suites.filter (Predicate.name [s.name]).accepts =
      catalog.suites.filter (· == s) := by
    refine List.filter_congr fun t ht => Bool.eq_iff_iff.2 ?_
    rw [accepts_name_iff hs ht, beq_iff_eq]
  rw [honly, List.filter_beq, catalog.nodup_suites.count, if_pos hs]
  rfl

end CipherRules.Catalog
