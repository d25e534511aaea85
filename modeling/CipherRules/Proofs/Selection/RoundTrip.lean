import CipherRules.Proofs.RuleString.RoundTrip
import CipherRules.Proofs.Selection.Membership
import CipherRules.Proofs.Selection.Restriction
import CipherRules.Proofs.Selection.RuleString
import Mathlib.Data.List.Nodup

/-!
# Selections — Round trips

A selection, written out as a rule string, selects itself.

Each name is a token by itself (`Clause.parse_of_writable`).  Whichever of its names a suite is
written under (`Naming`), the token is read as the rule that adds it by its standard name.  Applied
to a choice without the suite, the rule appends just that suite (`Choice.add_name`), so the rules of
different suites choose them in the order they are written in (`Choice.after_additions`).

* `value_ofRuleString_join`: what different suites of a catalog, written out, select.
* `ofRuleString_text`: what a selection, written out, selects, with either kind of name.  The
  selections from the builtin catalog are all within the limits.
-/

namespace CipherRules

open Text (byteLength join pieces)

variable {catalog : Catalog}

/-! ### Reading names -/

namespace RuleString

/-- A name that can stand in a rule string as it is, is read as a term that adds. -/
theorem Clause.parse_of_writable {n : Text} (h : Writable n) :
    Clause.parse n = .ok (.apply .add (.suite n) []) := by
  have hword : Word n := h.word
  have hone : pieces termSeparator n = [n] := Text.pieces_of_not_mem hword.no_termSeparator
  refine Clause.parse_eq_ok_iff.2 (Or.inr ⟨.add, n, by decide, rfl, parseBody_eq_ok_iff.2 ?_⟩)
  refine ⟨hword.ne_nil, hword.no_leading_mark, ?_, .suite n, [], ?_, rfl⟩
  · rw [hone]
    exact Nat.le_add_left 1 15
  · rw [hone, List.map_singleton, Term.parse_suite h.looksLike]
    rfl

/-- A way to write suites of the catalog in a rule string: each under one of its names, which can
stand there as it is. -/
structure Naming (catalog : Catalog) (nameOf : Suite → Text) : Prop where
  mem_names : ∀ s ∈ catalog.suites, nameOf s ∈ s.names
  writable : ∀ s ∈ catalog.suites, Writable (nameOf s)

namespace Naming

variable {nameOf : Suite → Text}

theorem of_name (h : ∀ s ∈ catalog.suites, Writable s.name) : Naming catalog Suite.name :=
  ⟨fun _ _ => List.mem_cons_self, h⟩

theorem of_opensslName (h : ∀ s ∈ catalog.suites, Writable s.opensslName) :
    Naming catalog Suite.opensslName :=
  ⟨fun _ _ => List.mem_cons_of_mem _ List.mem_cons_self, h⟩

/-- Under either name the rule that is read has the standard one. -/
theorem resolve? (h : Naming catalog nameOf) {s : Suite} (hs : s ∈ catalog.suites) :
    (Clause.apply .add (.suite (nameOf s)) []).resolve? catalog = some ⟨.add, .name [s.name]⟩ := by
  have hlookup : catalog.lookup? (nameOf s) = some s :=
    Catalog.lookup?_eq_some_iff.2 ⟨hs, h.mem_names s hs⟩
  rw [Clause.resolve?, Term.resolve?, hlookup]
  rfl

/-- Suites, written out, are read as the rules that add them. -/
theorem value_parse_join (h : Naming catalog nameOf) {suites : List Suite} (hne : suites ≠ [])
    (hmem : ∀ s ∈ suites, s ∈ catalog.suites) (hcount : suites.length ≤ Limits.rules)
    (hbytes : byteLength (join [separator] (suites.map nameOf)) ≤ Limits.ruleStringBytes) :
    (parse catalog (join [separator] (suites.map nameOf))).value = .ok (Rule.additions suites) := by
  have hword : ∀ t ∈ suites.map nameOf, Word t := by
    intro t ht
    obtain ⟨s, hs, rfl⟩ := List.mem_map.1 ht
    exact (h.writable s (hmem s hs)).word
  have htrim : ∀ t ∈ suites.map nameOf, Text.trim t = t := fun t ht =>
    Text.trim_eq_self (hword t ht).no_leading_blank (hword t ht).no_trailing_blank
  refine (value_parse_join_eq_ok_iff (by simpa using hne) (fun t ht => (hword t ht).no_separator)
    htrim).2 ⟨hbytes, by rwa [List.length_map],
      suites.map fun s => .apply .add (.suite (nameOf s)) [], ?_, ?_⟩
  · rw [Reads, List.map_map, List.map_map]
    exact List.map_congr_left fun s hs => Clause.parse_of_writable (h.writable s (hmem s hs))
  · rw [List.filterMap_map, Rule.additions, ← List.filterMap_eq_map]
    exact List.filterMap_congr fun s hs => (h.resolve? (hmem s hs)).symm

end Naming

end RuleString

/-! ### Round trips -/

namespace Selection

open RuleString (Naming Writable separator writable_builtin)
open WorkingSet (after)

/-- **What different suites, written out, select**: the suites, in the order they are written in. -/
theorem value_ofRuleString_join {nameOf : Suite → Text} (h : Naming catalog nameOf)
    {suites : List Suite} (hne : suites ≠ []) (hmem : ∀ s ∈ suites, s ∈ catalog.suites)
    (hnodup : suites.Nodup) (hcount : suites.length ≤ Limits.rules)
    (hbytes : byteLength (join [separator] (suites.map nameOf)) ≤ Limits.ruleStringBytes) :
    (ofRuleString catalog (join [separator] (suites.map nameOf))).value =
      .ok ⟨suites, Rule.listText (Rule.additions suites)⟩ := by
  have hread := h.value_parse_join hne hmem hcount hbytes
  have hsuites : (after catalog (Rule.additions suites)).suites catalog = suites := by
    rw [WorkingSet.suites_after, Choice.after_additions hmem hnodup]
  have horder : (after catalog (Rule.additions suites)).order ≠ [] := fun hnil =>
    hne (hsuites.symm.trans (suites_after_eq_nil_iff.2 hnil))
  rw [value_ofRuleString_of_parse hread, if_neg horder, hsuites]

/-- The suites that a build selects are some of the catalog, each selected once. -/
theorem suites_of_build {rules : List Rule} {selection : Selection}
    (h : (build catalog rules).value = .ok selection) :
    selection.suites ≠ [] ∧ (∀ s ∈ selection.suites, s ∈ catalog.suites) ∧
      selection.suites.Nodup := by
  obtain ⟨-, hne, rfl⟩ := value_build_eq_ok_iff.1 h
  exact ⟨fun hnil => hne (suites_after_eq_nil_iff.1 hnil), fun s hs => (mem_suites_after.1 hs).1,
    List.Nodup.of_map Suite.name (nodup_names_after catalog rules)⟩

/-- A selection has no more suites than the catalog. -/
theorem size_le_of_build {rules : List Rule} {selection : Selection}
    (h : (build catalog rules).value = .ok selection) : selection.size ≤ catalog.size := by
  obtain ⟨-, hmem, hnodup⟩ := suites_of_build h
  exact (hnodup.subperm hmem).length_le

/-- The text, read as a rule string, makes a selection that is equal to this one: it has the same
suites in the same order. -/
def Restores (catalog : Catalog) (text : Text) (selection : Selection) : Prop :=
  ∃ again, (ofRuleString catalog text).value = .ok again ∧ (again == selection) = true ∧
    again.suites = selection.suites

theorem restores_of_naming {nameOf : Suite → Text} (hnaming : Naming catalog nameOf)
    {rules : List Rule} {selection : Selection} (h : (build catalog rules).value = .ok selection)
    (hcount : selection.size ≤ Limits.rules)
    (hbytes : byteLength (join [separator] (selection.suites.map nameOf)) ≤
      Limits.ruleStringBytes) :
    Restores catalog (join [separator] (selection.suites.map nameOf)) selection := by
  obtain ⟨hne, hmem, hnodup⟩ := suites_of_build h
  exact ⟨_, value_ofRuleString_join hnaming hne hmem hnodup hcount hbytes,
    beq_self_eq_true selection.names, rfl⟩

/-- The other names of the builtin catalog can stand in a rule string as well. -/
theorem writable_opensslName_builtin : ∀ s ∈ Catalog.builtin.suites, Writable s.opensslName := by
  decide +kernel

/-- The names of the builtin catalog are few and short, so any of them fit in a rule string. -/
theorem byteLength_builtin_le {nameOf : Suite → Text} (h : Naming Catalog.builtin nameOf)
    {rules : List Rule} {selection : Selection}
    (hbuild : (build Catalog.builtin rules).value = .ok selection) :
    byteLength (join [separator] (selection.suites.map nameOf)) ≤ Limits.ruleStringBytes := by
  have short : ∀ s ∈ Catalog.builtin.suites, ∀ n ∈ s.names, byteLength n ≤ 63 := by
    decide +kernel
  have hjoin : byteLength (join [separator] (selection.suites.map nameOf)) ≤
      (selection.suites.map nameOf).length * 64 := by
    refine Text.byteLength_join_le fun n hn => ?_
    obtain ⟨s, hs, rfl⟩ := List.mem_map.1 hn
    have hcatalog : s ∈ Catalog.builtin.suites := (suites_of_build hbuild).2.1 s hs
    exact Nat.succ_le_succ (short s hcatalog _ (h.mem_names s hcatalog))
  have hsize : selection.suites.length ≤ Catalog.builtin.size := size_le_of_build hbuild
  have hroom : Catalog.builtin.size * 64 ≤ Limits.ruleStringBytes := by decide
  rw [List.length_map] at hjoin
  exact Nat.le_trans hjoin (Nat.le_trans (Nat.mul_le_mul_right 64 hsize) hroom)

/-- **A selection, written out as a rule string, selects itself**, within the limits of a rule
string: with its standard names if those of the catalog can all stand in a rule string, and with its
other names if they can.  For the builtin catalog there is nothing to assume: both kinds of name
can, and every selection is within the limits. -/
theorem ofRuleString_text :
    (∀ (catalog : Catalog) (rules : List Rule) (selection : Selection),
      (build catalog rules).value = .ok selection → selection.size ≤ Limits.rules →
      ((∀ s ∈ catalog.suites, Writable s.name) →
        byteLength selection.text ≤ Limits.ruleStringBytes →
        Restores catalog selection.text selection) ∧
      ((∀ s ∈ catalog.suites, Writable s.opensslName) →
        byteLength (join [separator] selection.opensslNames) ≤ Limits.ruleStringBytes →
        Restores catalog (join [separator] selection.opensslNames) selection)) ∧
    (∀ s ∈ Catalog.builtin.suites, Writable s.name ∧ Writable s.opensslName) ∧
    (∀ (rules : List Rule) (selection : Selection),
      (build Catalog.builtin rules).value = .ok selection →
      selection.size ≤ Limits.rules ∧ byteLength selection.text ≤ Limits.ruleStringBytes ∧
      byteLength (join [separator] selection.opensslNames) ≤ Limits.ruleStringBytes ∧
      Restores Catalog.builtin selection.text selection ∧
      Restores Catalog.builtin (join [separator] selection.opensslNames) selection) := by
  refine ⟨fun catalog rules selection h hcount => ⟨fun hwritable hbytes => ?_,
    fun hwritable hbytes => ?_⟩, fun s hs => ⟨writable_builtin s hs,
    writable_opensslName_builtin s hs⟩, fun rules selection h => ?_⟩
  · exact restores_of_naming (.of_name hwritable) h hcount hbytes
  · exact restores_of_naming (.of_opensslName hwritable) h hcount hbytes
  · have hname : Naming Catalog.builtin Suite.name := .of_name writable_builtin
    have hopenssl : Naming Catalog.builtin Suite.opensslName :=
      .of_opensslName writable_opensslName_builtin
    have hsize : selection.size ≤ Limits.rules := Nat.le_trans (size_le_of_build h) (by decide)
    have htext := byteLength_builtin_le hname h
    have hother := byteLength_builtin_le hopenssl h
    exact ⟨hsize, htext, hother, restores_of_naming hname h hsize htext,
      restores_of_naming hopenssl h hsize hother⟩

/-- Suites with RC4, by strength and so not in the order of the catalog, read back from their other
names. -/
theorem restores_rc4 : ∃ selection,
    (build Catalog.builtin [⟨.add, .encryption [.rc4]⟩, .sortByStrength,
      ⟨.keepOnly, .keyExchange [.rsa]⟩]).value = .ok selection ∧
    Restores Catalog.builtin (.of "RC4-MD5:RC4-SHA:EXP-RC4-MD5") selection := by
  obtain ⟨hbuilt, hwritable, -⟩ := ofRuleString_text
  have hlimits : WithinLimits [⟨.add, .encryption [.rc4]⟩, .sortByStrength,
      ⟨.keepOnly, .keyExchange [.rsa]⟩] := ⟨by decide, by decide⟩
  have hselected : (after Catalog.builtin [⟨.add, .encryption [.rc4]⟩, .sortByStrength,
      ⟨.keepOnly, .keyExchange [.rsa]⟩]).order ≠ [] := by decide +kernel
  have hbuild := value_build_of_order_ne_nil hlimits hselected
  refine ⟨_, hbuild, ?_⟩
  obtain ⟨-, hopenssl⟩ := hbuilt Catalog.builtin _ _ hbuild (by decide +kernel)
  exact hopenssl (fun s hs => (hwritable s hs).2) (by decide +kernel)

end Selection

end CipherRules
