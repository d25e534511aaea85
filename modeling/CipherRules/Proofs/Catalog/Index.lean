import CipherRules.Catalog.Builtin
import CipherRules.Proofs.Catalog.Part

/-!
# Catalogs — The index of names

Which lists of suites are catalogs, and at which place a catalog finds a name.

A place *clashes* (`Clashes`) when its suite has a name that is used before it (`UsedBefore`).  A
list is refused for the first place that clashes, and its standard name comes first
(`firstClash?_eq_some_iff`).

An index of names can be kept while the suites are read: each name is entered with its place
(`entries`), and an entry hides the older ones for the same name.  A list is refused exactly when an
entry hides one of another place (`displaced?_entries`); in the index of a catalog no entry does, so
the latest entry for a name is that of the only place that has it (`lookup_entries`).

`names_find_places` says all this of lists, of catalogs and of the builtin catalog.
-/

namespace CipherRules.Catalog

variable {catalog : Catalog} {earlier suites : List Suite} {n : Text} {i j : Nat}

/-! ### Clashes -/

/-- A suite before the place has the name. -/
def UsedBefore (suites : List Suite) (j : Nat) (n : Text) : Prop :=
  ∃ i s, i < j ∧ suites[i]? = some s ∧ n ∈ s.names

/-- The suite at the place has a name that a suite before it has. -/
def Clashes (suites : List Suite) (j : Nat) : Prop :=
  ∃ s, suites[j]? = some s ∧ ∃ n ∈ s.names, UsedBefore suites j n

theorem usedBefore_iff :
    UsedBefore suites j n ↔ (suites.take j).any (·.hasName n) = true := by
  simp only [List.any_eq_true, Suite.hasName_iff]
  constructor
  · rintro ⟨i, s, hij, hs, hn⟩
    exact ⟨s, List.mem_of_getElem? (by rwa [List.getElem?_take_of_lt hij]), hn⟩
  · rintro ⟨s, hs, hn⟩
    obtain ⟨i, hi⟩ := List.getElem?_of_mem hs
    rw [List.getElem?_take, Option.ite_none_right_eq_some] at hi
    exact ⟨i, s, hi.1, hi.2, hn⟩

/-- A clash is found at a place before which there is none, in the first name used before. -/
theorem firstClash?_eq_some_iff_find? :
    firstClash? earlier suites = some n ↔
      ∃ j s, suites[j]? = some s ∧ firstClash? earlier (suites.take j) = none ∧
        (s.names.find? fun m => (earlier ++ suites.take j).any (·.hasName m)) = some n := by
  induction suites generalizing earlier with
  | nil => simp [firstClash?]
  | cons t rest ih =>
    cases ht : t.names.find? fun m => earlier.any (·.hasName m) with
    | some m =>
      simp only [firstClash?, ht]
      constructor
      · intro h
        exact ⟨0, t, rfl, rfl, by simpa [ht] using h⟩
      · rintro ⟨_ | j, s, hs, hnone, hn⟩
        · cases hs
          simpa [ht] using hn
        · simp [firstClash?, ht] at hnone
    | none =>
      simp only [firstClash?, ht, ih]
      constructor
      · rintro ⟨j, s, hs, hnone, hn⟩
        exact ⟨j + 1, s, hs, by simp [firstClash?, ht, hnone], by simpa using hn⟩
      · rintro ⟨_ | j, s, hs, hnone, hn⟩
        · cases hs
          simp [ht] at hn
        · exact ⟨j, s, hs, by simpa [firstClash?, ht] using hnone, by simpa using hn⟩

/-- There is no clash exactly when no two places have a common name. -/
theorem firstClash?_nil_eq_none_iff :
    firstClash? [] suites = none ↔ ∀ j, ¬ Clashes suites j := by
  rw [firstClash?_eq_none_iff, List.pairwise_iff_getElem]
  constructor
  · rintro ⟨-, h⟩ j ⟨s, hs, n, hn, i, t, hij, ht, hnt⟩
    obtain ⟨hi, rfl⟩ := List.getElem?_eq_some_iff.1 ht
    obtain ⟨hj, rfl⟩ := List.getElem?_eq_some_iff.1 hs
    exact h i j hi hj hij ⟨n, hn, hnt⟩
  · refine fun h => ⟨fun _ ha => absurd ha List.not_mem_nil, ?_⟩
    rintro i j hi hj hij ⟨n, hn, hnt⟩
    exact h j ⟨_, List.getElem?_eq_getElem hj, n, hn, i, _, hij, List.getElem?_eq_getElem hi, hnt⟩

theorem clashes_take (h : i < j) : Clashes (suites.take j) i ↔ Clashes suites i := by
  have hused : ∀ m, UsedBefore (suites.take j) i m ↔ UsedBefore suites i m := fun m => by
    rw [usedBefore_iff, usedBefore_iff, List.take_take, Nat.min_eq_left (Nat.le_of_lt h)]
  simp only [Clashes, List.getElem?_take_of_lt h, hused]

/-- **A list is refused for the first place that clashes**: for its standard name if that is used
before, otherwise for its other name. -/
theorem firstClash?_eq_some_iff :
    firstClash? [] suites = some n ↔
      ∃ j s, suites[j]? = some s ∧ Clashes suites j ∧ (∀ i < j, ¬ Clashes suites i) ∧
        (UsedBefore suites j s.name ∧ n = s.name ∨
          ¬ UsedBefore suites j s.name ∧ n = s.opensslName) := by
  rw [firstClash?_eq_some_iff_find?]
  refine exists_congr fun j => exists_congr fun s => and_congr_right fun hs => ?_
  have hbefore : firstClash? [] (suites.take j) = none ↔ ∀ i < j, ¬ Clashes suites i := by
    rw [firstClash?_nil_eq_none_iff]
    constructor
    · exact fun h i hij hi => h i ((clashes_take hij).2 hi)
    · intro h i hi
      have hij : i < j := by
        obtain ⟨t, ht, -⟩ := hi
        rw [List.getElem?_take, Option.ite_none_right_eq_some] at ht
        exact ht.1
      exact h i hij ((clashes_take hij).1 hi)
  have hclash : Clashes suites j ↔
      UsedBefore suites j s.name ∨ UsedBefore suites j s.opensslName := by
    simp [Clashes, hs, Suite.names]
  rw [hbefore, hclash, List.nil_append]
  simp only [usedBefore_iff]
  cases hname : (suites.take j).any (·.hasName s.name) <;>
    cases hother : (suites.take j).any (·.hasName s.opensslName) <;>
    simp [Suite.names, hname, hother, eq_comm]

/-! ### Places of names -/

/-- A name is found at the place that has it. -/
theorem indexOf?_eq_some_iff :
    catalog.indexOf? n = some i ↔ ∃ s, catalog.suites[i]? = some s ∧ n ∈ s.names := by
  rw [indexOf?, List.findIdx?_eq_some_iff_getElem]
  constructor
  · rintro ⟨hi, hn, -⟩
    exact ⟨_, List.getElem?_eq_getElem hi, Suite.hasName_iff.1 hn⟩
  · rintro ⟨s, hs, hn⟩
    obtain ⟨hi, rfl⟩ := List.getElem?_eq_some_iff.1 hs
    refine ⟨hi, Suite.hasName_iff.2 hn, fun j hj hm => ?_⟩
    have hsj : catalog.suites[j]? = some catalog.suites[j] := List.getElem?_eq_getElem _
    exact Nat.ne_of_lt hj (place_unique hsj hs (Suite.hasName_iff.1 hm) hn)

theorem lookup?_eq_bind_indexOf? (catalog : Catalog) (n : Text) :
    catalog.lookup? n = (catalog.indexOf? n).bind (catalog.suites[·]?) :=
  List.find?_eq_bind_findIdx?_getElem?

theorem ofSuites?_eq_ok_iff : ofSuites? suites = .ok catalog ↔ catalog.suites = suites := by
  constructor
  · intro h
    unfold ofSuites? at h
    split at h
    · cases h
    · cases h
      rfl
  · rintro rfl
    exact ofSuites?_suites catalog

theorem ofSuites?_eq_error_iff :
    ofSuites? suites = .error (.sharedName n) ↔ firstClash? [] suites = some n := by
  unfold ofSuites?
  split
  · rename_i m hm
    simp [hm]
  · rename_i hnone
    simp [hnone]

/-! ### The index -/

/-- The names of the suites with their places, in reading order, the first suite at place `i`. -/
def entries (i : Nat) : List Suite → List (Text × Nat)
  | [] => []
  | s :: rest => s.names.map (·, i) ++ entries (i + 1) rest

/-- The first name that is entered while the index, which has the latest entry in front, shows
another place for it. -/
def displaced? (index : List (Text × Nat)) : List (Text × Nat) → Option Text
  | [] => none
  | (n, i) :: rest =>
      if (index.lookup n).any (· != i) then some n else displaced? ((n, i) :: index) rest

theorem entries_append : ∀ (i : Nat) (first last : List Suite),
    entries i (first ++ last) = entries i first ++ entries (i + first.length) last
  | _, [], _ => rfl
  | i, s :: rest, last => by
      rw [List.cons_append, entries, entries, entries_append (i + 1) rest last, List.length_cons,
        List.append_assoc, Nat.add_assoc, Nat.add_comm 1]

theorem mem_entries : (n, j) ∈ entries i suites ↔
    ∃ k s, j = i + k ∧ suites[k]? = some s ∧ n ∈ s.names := by
  induction suites generalizing i with
  | nil => simp [entries]
  | cons t rest ih =>
    rw [entries, List.mem_append, List.mem_map, ih]
    constructor
    · rintro (⟨m, hm, heq⟩ | ⟨k, s, rfl, hs, hn⟩)
      · cases heq
        exact ⟨0, t, rfl, rfl, hm⟩
      · exact ⟨k + 1, s, by omega, hs, hn⟩
    · rintro ⟨_ | k, s, rfl, hs, hn⟩
      · cases hs
        exact Or.inl ⟨n, hn, rfl⟩
      · exact Or.inr ⟨k, s, by omega, hs, hn⟩

theorem mem_entries_zero :
    (n, j) ∈ entries 0 suites ↔ ∃ s, suites[j]? = some s ∧ n ∈ s.names := by
  rw [mem_entries]
  simp

/-- What the index shows for a name was entered for it. -/
theorem mem_of_lookup_reverse {entered : List (Text × Nat)}
    (h : entered.reverse.lookup n = some j) : (n, j) ∈ entered := by
  obtain ⟨before, later, heq, -⟩ := List.lookup_eq_some_iff.1 h
  rw [← List.mem_reverse, heq]
  exact List.mem_append_right before List.mem_cons_self

/-- The index shows a place for every name that was entered. -/
theorem exists_lookup_reverse_of_mem {entered : List (Text × Nat)} (h : (n, j) ∈ entered) :
    ∃ k, entered.reverse.lookup n = some k := by
  have hsome : (entered.reverse.lookup n).isSome = true :=
    List.lookup_isSome_iff.2 ⟨(n, j), List.mem_reverse.2 h, beq_self_eq_true n⟩
  exact Option.isSome_iff_exists.1 hsome

/-- **The index of a catalog shows the place of each name.** -/
theorem lookup_entries (catalog : Catalog) (n : Text) :
    (entries 0 catalog.suites).reverse.lookup n = catalog.indexOf? n := by
  refine Option.ext fun i => ?_
  rw [indexOf?_eq_some_iff, ← mem_entries_zero]
  refine ⟨mem_of_lookup_reverse, fun hi => ?_⟩
  obtain ⟨k, hk⟩ := exists_lookup_reverse_of_mem hi
  obtain ⟨s, hs, hns⟩ := mem_entries_zero.1 hi
  obtain ⟨t, ht, hnt⟩ := mem_entries_zero.1 (mem_of_lookup_reverse hk)
  rw [hk, place_unique ht hs hnt hns]

theorem displaced?_append {index first last : List (Text × Nat)} :
    displaced? index (first ++ last) =
      (displaced? index first).or (displaced? (first.reverse ++ index) last) := by
  induction first generalizing index with
  | nil => rfl
  | cons e rest ih =>
    obtain ⟨m, k⟩ := e
    rw [List.cons_append, displaced?, displaced?]
    split
    · rfl
    · rw [ih, List.reverse_cons, List.append_assoc]
      rfl

/-- Entering a name for a place leaves the other places of the other names as they were, so the
names of one suite are tested against what stood there before. -/
theorem displaced?_map {index : List (Text × Nat)} {names : List Text} :
    displaced? index (names.map (·, i)) =
      names.find? fun n => (index.lookup n).any (· != i) := by
  induction names generalizing index with
  | nil => rfl
  | cons m rest ih =>
    rw [List.map_cons, displaced?, List.find?_cons]
    cases hm : (index.lookup m).any (· != i) with
    | true => rfl
    | false =>
      rw [if_neg (by simp), ih]
      refine congrArg (fun f => rest.find? f) (funext fun n => ?_)
      by_cases hn : n = m
      · subst hn
        rw [List.lookup_cons_self, hm]
        simp
      · have hne : (n == m) = false := beq_eq_false_iff_ne.2 hn
        rw [List.lookup_cons, hne]

/-- The index of some suites shows, for exactly their names, a place before the next one. -/
theorem any_lookup_entries (earlier : List Suite) (n : Text) :
    (((entries 0 earlier).reverse.lookup n).any (· != earlier.length)) =
      earlier.any (·.hasName n) := by
  rw [Bool.eq_iff_iff, Option.any_eq_true, List.any_eq_true]
  simp only [Suite.hasName_iff, bne_iff_ne]
  constructor
  · rintro ⟨j, hj, -⟩
    obtain ⟨s, hs, hn⟩ := mem_entries_zero.1 (mem_of_lookup_reverse hj)
    exact ⟨s, List.mem_of_getElem? hs, hn⟩
  · rintro ⟨s, hs, hn⟩
    obtain ⟨i, hi⟩ := List.getElem?_of_mem hs
    obtain ⟨k, hk⟩ := exists_lookup_reverse_of_mem (mem_entries_zero.2 ⟨s, hi, hn⟩)
    obtain ⟨t, ht, -⟩ := mem_entries_zero.1 (mem_of_lookup_reverse hk)
    obtain ⟨hlt, -⟩ := List.getElem?_eq_some_iff.1 ht
    exact ⟨k, hk, Nat.ne_of_lt hlt⟩

/-- **An entry hides one of another place exactly where a name clashes.** -/
theorem displaced?_entries (earlier suites : List Suite) :
    displaced? (entries 0 earlier).reverse (entries earlier.length suites) =
      firstClash? earlier suites := by
  induction suites generalizing earlier with
  | nil => rfl
  | cons s rest ih =>
    have hindex : (s.names.map (·, earlier.length)).reverse ++ (entries 0 earlier).reverse =
        (entries 0 (earlier ++ [s])).reverse := by
      rw [entries_append, Nat.zero_add, List.reverse_append]
      simp [entries]
    have hlen : (earlier ++ [s]).length = earlier.length + 1 := List.length_append
    rw [entries, displaced?_append, displaced?_map, hindex, ← hlen, ih, firstClash?]
    simp only [any_lookup_entries]
    cases s.names.find? fun n => earlier.any (·.hasName n) <;> rfl

/-! ### Names in catalogs -/

/-- **Catalogs, and the names in them.**  A list of suites is a catalog, as it stands, exactly if no
name is used at two places.  Otherwise it is refused for the first place that has a name used before
it: for the standard name there if that one is used before, else for the other name.  This is the
name for which an index, filled in reading order, first shows another place.

In a catalog a name is found at the place that has it and nowhere else, as the index shows it too,
and is looked up there.  The builtin catalog is set up without the check, which it would pass. -/
theorem names_find_places :
    (∀ suites : List Suite,
      ((∃ catalog, ofSuites? suites = .ok catalog) ↔
        ∀ (i j : Nat) (a b : Suite) (n : Text), suites[i]? = some a → suites[j]? = some b →
          n ∈ a.names → n ∈ b.names → i = j) ∧
      (∀ catalog, ofSuites? suites = .ok catalog → catalog.suites = suites) ∧
      (∀ n, ofSuites? suites = .error (.sharedName n) ↔
        ∃ j s, suites[j]? = some s ∧ Clashes suites j ∧ (∀ i < j, ¬ Clashes suites i) ∧
          (UsedBefore suites j s.name ∧ n = s.name ∨
            ¬ UsedBefore suites j s.name ∧ n = s.opensslName)) ∧
      (∀ n, ofSuites? suites = .error (.sharedName n) ↔
        displaced? [] (entries 0 suites) = some n)) ∧
    (∀ (catalog : Catalog) (n : Text),
      (∀ i, catalog.indexOf? n = some i ↔ ∃ s, catalog.suites[i]? = some s ∧ n ∈ s.names) ∧
      (entries 0 catalog.suites).reverse.lookup n = catalog.indexOf? n ∧
      catalog.lookup? n = (catalog.indexOf? n).bind (catalog.suites[·]?)) ∧
    builtin.suites = builtinSuites ∧ ofSuites? builtinSuites = .ok builtin := by
  refine ⟨fun suites => ⟨?_, fun catalog h => ofSuites?_eq_ok_iff.1 h, fun n => ?_, fun n => ?_⟩,
    fun catalog n => ⟨fun i => indexOf?_eq_some_iff, lookup_entries catalog n,
      lookup?_eq_bind_indexOf? catalog n⟩, rfl, ofSuites?_suites builtin⟩
  · constructor
    · rintro ⟨catalog, h⟩ i j a b n ha hb hna hnb
      obtain rfl := ofSuites?_eq_ok_iff.1 h
      exact place_unique ha hb hna hnb
    · intro h
      have hnone : firstClash? [] suites = none := by
        refine firstClash?_nil_eq_none_iff.2 ?_
        rintro j ⟨s, hs, n, hn, i, t, hij, ht, hnt⟩
        exact Nat.ne_of_lt hij (h i j t s n ht hs hnt hn)
      exact ⟨⟨suites, (firstClash?_eq_none_iff.1 hnone).2⟩, ofSuites?_eq_ok_iff.2 rfl⟩
  · rw [ofSuites?_eq_error_iff, firstClash?_eq_some_iff]
  · rw [ofSuites?_eq_error_iff, ← displaced?_entries]
    rfl

/-- A suite whose other name is the standard name of the one before, and a name of the builtin
catalog. -/
theorem names_find_places_alias :
    ofSuites? [
        row 1 (.of "TLS_RSA_WITH_NULL_MD5") (.of "NULL-MD5") .sslV3 .rsa .rsa .null .md5 .none false 0,
        row 2 (.of "TLS_RSA_WITH_NULL_SHA") (.of "TLS_RSA_WITH_NULL_MD5")
          .sslV3 .rsa .rsa .null .sha1 .none false 0] =
      .error (.sharedName (.of "TLS_RSA_WITH_NULL_MD5")) ∧
    builtin.indexOf? (.of "RC4-SHA") = some 4 := by
  obtain ⟨hlists, hcatalogs, -⟩ := names_find_places
  obtain ⟨-, -, herror, -⟩ := hlists [
    row 1 (.of "TLS_RSA_WITH_NULL_MD5") (.of "NULL-MD5") .sslV3 .rsa .rsa .null .md5 .none false 0,
    row 2 (.of "TLS_RSA_WITH_NULL_SHA") (.of "TLS_RSA_WITH_NULL_MD5")
      .sslV3 .rsa .rsa .null .sha1 .none false 0]
  obtain ⟨hplace, -⟩ := hcatalogs builtin (.of "RC4-SHA")
  refine ⟨(herror _).2 ⟨1, _, rfl, ⟨_, rfl, .of "TLS_RSA_WITH_NULL_MD5", by decide, 0, _,
    by decide, rfl, by decide⟩, ?_, Or.inr ⟨?_, rfl⟩⟩, (hplace 4).2 ⟨_, rfl, by decide⟩⟩
  · rintro i hi ⟨s, -, n, -, j, t, hj, -⟩
    omega
  · rw [usedBefore_iff]
    decide

end CipherRules.Catalog
