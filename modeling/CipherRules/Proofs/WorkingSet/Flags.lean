import CipherRules.WorkingSet

/-!
# Working sets — Flags

A list of flags read place by place.  Lists of one length that agree at every place are equal
(`flags_ext`), and the places whose flag is set are listed once each in catalog order (`mem_places`,
`nodup_places`).  The flag of a place among the hits of a predicate is set exactly if the suite
there is accepted (`flag_hits`).
-/

namespace CipherRules

namespace WorkingSet

theorem flag_eq_getElem {flags : List Bool} {i : Nat} (h : i < flags.length) :
    flag flags i = flags[i] := by
  simp [flag, h]

theorem flag_of_length_le {flags : List Bool} {i : Nat} (h : flags.length ≤ i) :
    flag flags i = false := by
  simp [flag, h]

theorem lt_length_of_flag {flags : List Bool} {i : Nat} (h : flag flags i = true) :
    i < flags.length := by
  by_cases hi : i < flags.length
  · exact hi
  · rw [flag_of_length_le (Nat.le_of_not_lt hi)] at h
    exact absurd h (by simp)

/-- Lists of one length with the same flags are equal. -/
theorem flags_ext {a b : List Bool} (hl : a.length = b.length)
    (h : ∀ i < a.length, flag a i = flag b i) : a = b := by
  refine List.ext_getElem hl fun i ha hb => ?_
  rw [← flag_eq_getElem ha, ← flag_eq_getElem hb]
  exact h i ha

@[simp] theorem flag_replicate_false (n i : Nat) : flag (List.replicate n false) i = false := by
  by_cases h : i < n
  · rw [flag_eq_getElem (by simpa using h), List.getElem_replicate]
  · exact flag_of_length_le (by simpa using h)

theorem flag_zipWith_of_lt (f : Bool → Bool → Bool) {a b : List Bool} {i : Nat}
    (ha : i < a.length) (hb : i < b.length) :
    flag (List.zipWith f a b) i = f (flag a i) (flag b i) := by
  rw [flag_eq_getElem (by rw [List.length_zipWith]; omega), List.getElem_zipWith,
    flag_eq_getElem ha, flag_eq_getElem hb]

/-- An operation on flags is read place by place, beyond the end of the lists too. -/
theorem flag_zipWith {f : Bool → Bool → Bool} (hf : f false false = false) {a b : List Bool}
    (h : a.length = b.length) (i : Nat) :
    flag (List.zipWith f a b) i = f (flag a i) (flag b i) := by
  by_cases hi : i < a.length
  · exact flag_zipWith_of_lt f hi (h ▸ hi)
  · have ha : a.length ≤ i := Nat.le_of_not_lt hi
    have hz : (List.zipWith f a b).length ≤ i := by rw [List.length_zipWith]; omega
    have hb : b.length ≤ i := by omega
    rw [flag_of_length_le ha, flag_of_length_le hb, flag_of_length_le hz, hf]

theorem flag_map_not {flags : List Bool} {i : Nat} (h : i < flags.length) :
    flag (flags.map (!·)) i = !flag flags i := by
  rw [flag_eq_getElem (by simpa using h), List.getElem_map, flag_eq_getElem h]

/-! ### The places of flags -/

@[simp] theorem mem_places {flags : List Bool} {i : Nat} :
    i ∈ places flags ↔ flag flags i = true := by
  simp only [places, List.mem_filter, List.mem_range]
  exact ⟨fun h => h.2, fun h => ⟨lt_length_of_flag h, h⟩⟩

theorem nodup_places (flags : List Bool) : (places flags).Nodup :=
  List.nodup_range.filter _

/-- Places hit by a part of the flags are those of all flags, filtered. -/
theorem places_eq_filter {a b : List Bool} {p : Nat → Bool} (hl : a.length = b.length)
    (h : ∀ i < a.length, flag a i = (flag b i && p i)) : places a = (places b).filter p := by
  rw [places, places, List.filter_filter, ← hl]
  refine List.filter_congr fun i hi => ?_
  rw [h i (List.mem_range.1 hi), Bool.and_comm]

end WorkingSet

open WorkingSet (flag)

/-! ### Hits -/

namespace Catalog

@[simp] theorem length_hits (catalog : Catalog) (p : Predicate) :
    (catalog.hits p).length = catalog.size := by
  simp [hits, size]

theorem flag_hits (catalog : Catalog) (p : Predicate) (i : Nat) :
    flag (catalog.hits p) i = (catalog.suites[i]?).any p.accepts := by
  by_cases h : i < catalog.suites.length
  · simp [hits, flag, h]
  · simp [hits, flag, h]

theorem flag_hits_of_getElem? {catalog : Catalog} {i : Nat} {s : Suite}
    (h : catalog.suites[i]? = some s) (p : Predicate) :
    flag (catalog.hits p) i = p.accepts s := by
  rw [flag_hits, h, Option.any_some]

/-- A place that is hit holds a suite that is accepted. -/
theorem exists_of_flag_hits {catalog : Catalog} {p : Predicate} {i : Nat}
    (h : flag (catalog.hits p) i = true) :
    ∃ s, catalog.suites[i]? = some s ∧ p.accepts s = true := by
  rw [flag_hits, Option.any_eq_true] at h
  exact h

/-- A predicate that accepts no suite of the catalog hits no place. -/
theorem flag_hits_eq_false {catalog : Catalog} {p : Predicate}
    (h : ∀ s ∈ catalog.suites, p.accepts s = false) (i : Nat) :
    flag (catalog.hits p) i = false := by
  rw [flag_hits]
  cases hs : catalog.suites[i]? with
  | none => rfl
  | some s => exact h s (List.mem_of_getElem? hs)

end Catalog

end CipherRules
