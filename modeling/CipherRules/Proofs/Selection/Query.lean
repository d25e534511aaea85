import CipherRules.Catalog.Builtin
import CipherRules.Proofs.Selection.RoundTrip

/-!
# Selections — Queries

A selection is asked for names without its catalog at hand: it compares a name with the two names of
each of its suites.  The answers are those of the catalog.  A text is a name of a suite of the
catalog exactly if it is looked up as a suite of that standard name
(`Catalog.exists_lookup?_name_eq_iff`), since no other suite has the name.

* `contains_iff_lookup?`: a name is contained exactly if the suite that it stands for is selected.
* `evaluate_eq_filter`: of the selected suites those are left that some supported name stands for,
  in their order of preference.
* `evaluate_congr`: so only the suites count that the supported names stand for.
* `queries_agree_with_catalog`: all this of every selection that is built.
-/

namespace CipherRules

/-- A text is a name of a suite exactly if it is looked up as a suite of that standard name. -/
theorem Catalog.exists_lookup?_name_eq_iff {catalog : Catalog} {s : Suite} {n : Text}
    (hs : s ∈ catalog.suites) :
    (∃ t, catalog.lookup? n = some t ∧ t.name = s.name) ↔ n ∈ s.names := by
  constructor
  · rintro ⟨t, hlookup, hname⟩
    obtain ⟨ht, hn⟩ := lookup?_eq_some_iff.1 hlookup
    have hsame : some t = some s := by rw [← lookup?_name ht, hname, lookup?_name hs]
    cases hsame
    exact hn
  · intro hn
    exact ⟨s, lookup?_eq_some_iff.2 ⟨hs, hn⟩, rfl⟩

namespace Selection

variable {catalog : Catalog} {rules : List Rule} {selection : Selection}
variable {supported others : List Text} {n : Text}

/-! ### Names of selected suites -/

theorem nodup_names_of_build (h : (build catalog rules).value = .ok selection) :
    selection.names.Nodup := by
  obtain ⟨-, -, rfl⟩ := value_build_eq_ok_iff.1 h
  exact nodup_names_after catalog rules

theorem mem_names_iff : n ∈ selection.names ↔ ∃ s ∈ selection.suites, s.name = n := List.mem_map

/-- A selection contains the names of its suites. -/
theorem contains_iff : selection.contains n = true ↔ ∃ s ∈ selection.suites, n ∈ s.names := by
  simp only [contains, List.contains_iff_mem, List.mem_append, mem_names_iff, opensslNames,
    List.mem_map, Suite.names, List.mem_cons, List.not_mem_nil, or_false]
  constructor
  · rintro (⟨s, hs, rfl⟩ | ⟨s, hs, rfl⟩)
    · exact ⟨s, hs, .inl rfl⟩
    · exact ⟨s, hs, .inr rfl⟩
  · rintro ⟨s, hs, rfl | rfl⟩
    · exact .inl ⟨s, hs, rfl⟩
    · exact .inr ⟨s, hs, rfl⟩

/-- **A name is contained exactly if the suite that it stands for is selected.** -/
theorem contains_iff_lookup? (h : (build catalog rules).value = .ok selection) :
    selection.contains n = true ↔
      ∃ s, catalog.lookup? n = some s ∧ s.name ∈ selection.names := by
  obtain ⟨-, hmem, -⟩ := suites_of_build h
  rw [contains_iff]
  constructor
  · rintro ⟨s, hs, hn⟩
    obtain ⟨t, hlookup, hname⟩ := (Catalog.exists_lookup?_name_eq_iff (hmem s hs)).2 hn
    exact ⟨t, hlookup, mem_names_iff.2 ⟨s, hs, hname.symm⟩⟩
  · rintro ⟨t, hlookup, hname⟩
    obtain ⟨s, hs, heq⟩ := mem_names_iff.1 hname
    exact ⟨s, hs, (Catalog.exists_lookup?_name_eq_iff (hmem s hs)).1 ⟨t, hlookup, heq.symm⟩⟩

/-! ### Supported suites -/

/-- The two lists of names, side by side, tell which suites are supported. -/
theorem evaluate_eq_filter_zip (selection : Selection) (supported : List Text) :
    selection.evaluate supported =
      ((selection.names.zip selection.opensslNames).filter fun names =>
        supported.contains names.1 || supported.contains names.2).map (·.1) := by
  have hzip : selection.names.zip selection.opensslNames =
      selection.suites.map fun suite => (suite.name, suite.opensslName) := by
    have hpairs := List.zip_unzip (selection.suites.map fun suite => (suite.name, suite.opensslName))
    rwa [unzip_names] at hpairs
  rw [hzip, evaluate, List.filter_map, List.map_map]
  rfl

/-- Some text of the list is looked up as the suite with a standard name. -/
def Finds (catalog : Catalog) (supported : List Text) (x : Text) : Bool :=
  supported.any fun n => (catalog.lookup? n).any fun s => s.name == x

theorem finds_iff {x : Text} : Finds catalog supported x = true ↔
    ∃ n ∈ supported, ∃ s, catalog.lookup? n = some s ∧ s.name = x := by
  simp [Finds, Option.any_eq_true]

theorem finds_name_iff {s : Suite} (hs : s ∈ catalog.suites) :
    Finds catalog supported s.name = true ↔ ∃ n ∈ supported, n ∈ s.names := by
  simp only [finds_iff, Catalog.exists_lookup?_name_eq_iff hs]

/-- **The selected suites that are supported are those that some supported name stands for.** -/
theorem evaluate_eq_filter (h : (build catalog rules).value = .ok selection) :
    selection.evaluate supported = selection.names.filter (Finds catalog supported) := by
  obtain ⟨-, hmem, -⟩ := suites_of_build h
  rw [evaluate, names, List.filter_map]
  refine congrArg (List.map _) (List.filter_congr fun s hs => Bool.eq_iff_iff.2 ?_)
  rw [Function.comp_apply, finds_name_iff (hmem s hs)]
  simp [Suite.names, and_or_left, exists_or]

/-- Only the suites count that the supported names stand for. -/
theorem evaluate_congr (h : (build catalog rules).value = .ok selection)
    (hfound : ∀ s, (∃ n ∈ supported, catalog.lookup? n = some s) ↔
      ∃ n ∈ others, catalog.lookup? n = some s) :
    selection.evaluate supported = selection.evaluate others := by
  rw [evaluate_eq_filter h, evaluate_eq_filter h]
  refine List.filter_congr fun x _ => Bool.eq_iff_iff.2 ?_
  rw [finds_iff, finds_iff]
  constructor
  · rintro ⟨n, hn, s, hs, hx⟩
    obtain ⟨m, hm, hms⟩ := (hfound s).1 ⟨n, hn, hs⟩
    exact ⟨m, hm, s, hms, hx⟩
  · rintro ⟨n, hn, s, hs, hx⟩
    obtain ⟨m, hm, hms⟩ := (hfound s).2 ⟨n, hn, hs⟩
    exact ⟨m, hm, s, hms, hx⟩

/-- One text may stand in the place of another that is looked up as the same suite. -/
theorem evaluate_replace (h : (build catalog rules).value = .ok selection) {n m : Text}
    (hlookup : catalog.lookup? n = catalog.lookup? m) (before later : List Text) :
    selection.evaluate (before ++ n :: later) = selection.evaluate (before ++ m :: later) := by
  refine evaluate_congr h fun s => ?_
  simp only [List.mem_append, List.mem_cons, or_and_right, exists_or, exists_eq_left, hlookup]

/-- A text that the catalog does not know may be left out. -/
theorem evaluate_unknown (h : (build catalog rules).value = .ok selection) {n : Text}
    (hnone : catalog.lookup? n = none) (before later : List Text) :
    selection.evaluate (before ++ n :: later) = selection.evaluate (before ++ later) := by
  refine evaluate_congr h fun s => ?_
  simp only [List.mem_append, List.mem_cons, or_and_right, exists_or, exists_eq_left, hnone,
    reduceCtorEq, false_or]

/-- Only the members of the list count, not their order nor how often they stand there. -/
theorem evaluate_congr_mem (h : (build catalog rules).value = .ok selection)
    (hmem : ∀ n, n ∈ supported ↔ n ∈ others) :
    selection.evaluate supported = selection.evaluate others :=
  evaluate_congr h fun s => by simp only [hmem]

/-- **What a selection answers agrees with the catalog that it is built from.**  It contains a name
exactly if the suite that the catalog finds for the name is selected.  Of a list of supported names
it leaves those of its own names, in their order and each once, that some supported name is looked
up as.  So neither the order of the supported names counts, nor a repetition, nor which of its names
a suite is given by, nor a text that the catalog does not know. -/
theorem queries_agree_with_catalog (h : (build catalog rules).value = .ok selection) :
    (∀ n, selection.contains n = true ↔
      ∃ s, catalog.lookup? n = some s ∧ s.name ∈ selection.names) ∧
    (∀ supported,
      selection.evaluate supported =
        ((selection.names.zip selection.opensslNames).filter fun names =>
          supported.contains names.1 || supported.contains names.2).map (·.1) ∧
      selection.evaluate supported = selection.names.filter (Finds catalog supported) ∧
      (selection.evaluate supported).Nodup) ∧
    (∀ supported others, supported.Perm others →
      selection.evaluate supported = selection.evaluate others) ∧
    (∀ n supported, n ∈ supported →
      selection.evaluate (n :: supported) = selection.evaluate supported) ∧
    (∀ s ∈ catalog.suites, ∀ n ∈ s.names, ∀ m ∈ s.names, ∀ before later,
      selection.evaluate (before ++ n :: later) = selection.evaluate (before ++ m :: later)) ∧
    ∀ n, catalog.lookup? n = none → ∀ before later,
      selection.evaluate (before ++ n :: later) = selection.evaluate (before ++ later) := by
  refine ⟨fun n => contains_iff_lookup? h, fun supported => ?_, fun supported others hperm => ?_,
    fun n supported hn => ?_, fun s hs n hn m hm before later => ?_,
    fun n hnone before later => evaluate_unknown h hnone before later⟩
  · have heq : selection.evaluate supported = _ := evaluate_eq_filter h
    exact ⟨evaluate_eq_filter_zip selection supported, heq,
      heq ▸ (nodup_names_of_build h).filter _⟩
  · exact evaluate_congr_mem h fun n => hperm.mem_iff
  · refine evaluate_congr_mem h fun m => ?_
    rw [List.mem_cons, or_iff_right_of_imp]
    rintro rfl
    exact hn
  · have hlookup : ∀ x ∈ s.names, catalog.lookup? x = some s := fun x hx =>
      Catalog.lookup?_eq_some_iff.2 ⟨hs, hx⟩
    exact evaluate_replace h ((hlookup n hn).trans (hlookup m hm).symm) before later

/-- Suites with RC4 by strength.  Of those supported, one is given by its other name, one by both,
one is not selected, and one not known. -/
theorem queries_agree_rc4 :
    ∃ selection, (build Catalog.builtin
        [⟨.add, .encryption [.rc4]⟩, ⟨.sortByStrength, .always⟩]).value = .ok selection ∧
      selection.contains (.of "EXP-RC4-MD5") = true ∧
      selection.evaluate [.of "EXP-RC4-MD5", .of "AES128-SHA", .of "RC4-MD5", .of "NO-SUCH",
          .of "TLS_RSA_WITH_RC4_128_MD5"] =
        [.of "TLS_RSA_WITH_RC4_128_MD5", .of "TLS_RSA_EXPORT_WITH_RC4_40_MD5"] := by
  have hbuild : (build Catalog.builtin
      [⟨.add, .encryption [.rc4]⟩, ⟨.sortByStrength, .always⟩]).value = .ok _ :=
    value_build_of_order_ne_nil ⟨by decide, by decide⟩ (by decide +kernel)
  obtain ⟨hcontains, hevaluate, -⟩ := queries_agree_with_catalog hbuild
  refine ⟨_, hbuild, (hcontains _).2 ⟨_, rfl, by decide +kernel⟩, ?_⟩
  rw [(hevaluate _).2.1]
  decide +kernel

end Selection

end CipherRules
