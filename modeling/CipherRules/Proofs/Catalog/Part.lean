import CipherRules.Proofs.Catalog.Names

/-!
# Catalogs — Parts

Some suites of a catalog in their order are a catalog again (`ofSuites?_part`).  A name that is
found in it stands for the suite that it stands for in the whole catalog (`lookup?_part`).
-/

namespace CipherRules.Catalog

variable {catalog : Catalog} {keep : Suite → Bool}

/-- The suites of the catalog that are to be kept, in their order. -/
def part (catalog : Catalog) (keep : Suite → Bool) : Catalog where
  suites := catalog.suites.filter keep
  names_unique := catalog.names_unique.filter _

/-- The suites of a catalog are a catalog, and no other one. -/
theorem ofSuites?_suites (catalog : Catalog) : ofSuites? catalog.suites = .ok catalog := by
  have hunique : firstClash? [] catalog.suites = none :=
    firstClash?_eq_none_iff.2 ⟨fun _ h => absurd h List.not_mem_nil, catalog.names_unique⟩
  unfold ofSuites?
  split
  · rename_i n hn
    rw [hunique] at hn
    cases hn
  · rfl

/-- Some suites of a catalog are a catalog. -/
theorem ofSuites?_part (catalog : Catalog) (keep : Suite → Bool) :
    ofSuites? (catalog.suites.filter keep) = .ok (catalog.part keep) :=
  ofSuites?_suites (catalog.part keep)

theorem mem_part {s : Suite} : s ∈ (catalog.part keep).suites ↔ s ∈ catalog.suites ∧ keep s = true :=
  List.mem_filter

/-- A name finds the suite that it finds in the whole catalog, if that suite is kept. -/
theorem lookup?_part (n : Text) :
    (catalog.part keep).lookup? n = (catalog.lookup? n).filter keep := by
  refine Option.ext fun s => ?_
  rw [Option.filter_eq_some_iff, lookup?_eq_some_iff, lookup?_eq_some_iff, mem_part]
  exact and_right_comm

end CipherRules.Catalog
