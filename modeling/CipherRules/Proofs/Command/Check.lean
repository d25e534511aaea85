import CipherRules.Proofs.Command.Lines
import CipherRules.Proofs.RuleString.Unknown
import CipherRules.Proofs.Selection.RoundTrip

/-!
# Commands — What a check reports

A check succeeds exactly if the policy selects something, and then it prints the lines of
`reportLines`: those about the policy and its selection, a warning about weak suites and one about
tokens that name unknown suites, each with its number where there are any, and the conclusion.

* `weakCount_names`: looking the selected names up again finds every selected suite.
* `ignoredCount_eq`: the tokens of which no rule has come are those that name an unknown suite.
* `check_reports`: the whole report.
-/

namespace CipherRules

/-- Looking up the names of suites of a catalog finds all of them again. -/
theorem Catalog.filterMap_lookup?_names {catalog : Catalog} : ∀ {suites : List Suite},
    (∀ s ∈ suites, s ∈ catalog.suites) → (suites.map (·.name)).filterMap catalog.lookup? = suites
  | [], _ => rfl
  | s :: rest, h => by
      have hs : catalog.lookup? s.name = some s := lookup?_name (h s List.mem_cons_self)
      rw [List.map_cons, List.filterMap_cons_some hs,
        filterMap_lookup?_names fun t ht => h t (List.mem_cons_of_mem s ht)]

/-- The rule string of a selection was read, and its rules were built. -/
theorem Selection.exists_parse_of_ofRuleString {catalog : Catalog} {input : Text}
    {selection : Selection} (h : (ofRuleString catalog input).value = .ok selection) :
    ∃ rules, (RuleString.parse catalog input).value = .ok rules ∧
      (build catalog rules).value = .ok selection := by
  cases hparse : (RuleString.parse catalog input).value with
  | error e =>
    rw [value_ofRuleString_of_error hparse] at h
    cases h
  | ok rules => exact ⟨rules, rfl, value_ofRuleString_of_ok hparse ▸ h⟩

namespace Command

open RuleString (parse separator unknownCount)
open Text (pieces)

variable {p : Policy} {s : Selection}

/-! ### What is counted -/

/-- The number of suites below medium strength. -/
def weakSuites (suites : List Suite) : Nat :=
  suites.countP fun s => Family.rank s.strength < Family.rank Strength.medium

theorem weakCount_names (h : (p.selection .builtin).value = .ok s) :
    s.names.filterMap Catalog.builtin.lookup? = s.suites ∧
      weakCount s.names = weakSuites s.suites := by
  obtain ⟨rules, -, hbuild⟩ := Selection.exists_parse_of_ofRuleString h
  have hfound : s.names.filterMap Catalog.builtin.lookup? = s.suites :=
    Catalog.filterMap_lookup?_names (Selection.suites_of_build hbuild).2.1
  refine ⟨hfound, ?_⟩
  rw [weakCount, hfound]
  rfl

theorem ignoredCount_eq {input : Text} {rules : List Rule}
    (h : (parse .builtin input).value = .ok rules) :
    ignoredCount input rules = unknownCount .builtin input := by
  rw [ignoredCount, ← RuleString.length_add_unknownCount h, Nat.add_sub_cancel_left]

/-! ### The report -/

/-- The warning about weak suites. -/
def weakWarning (n : Nat) : Text :=
  marked warningMark (Text.ofNat n ++ Text.of " weak suite(s) selected")

/-- The warning about tokens that were left out. -/
def ignoredWarning (n : Nat) : Text :=
  marked warningMark (Text.ofNat n ++ Text.of " token(s) name unknown suites and were ignored")

/-- The last line if there is nothing to warn of. -/
def unreservedConclusion : Text := goodMark ++ Text.of " Policy is valid!"

/-- The lines of a check that succeeds, given the numbers of weak suites and of tokens left out. -/
def reportLines (file : Text) (p : Policy) (s : Selection) (weak ignored : Nat) : List Text :=
  (Text.of "Checking policy: " ++ file) :: (policyLines p ++
    [marked goodMark (Text.of "Rule: " ++ s.rule),
      marked goodMark (Text.of "Suites: " ++ Text.ofNat s.size)] ++
    (warnings weak ignored).map (marked warningMark) ++
    [[], conclusion (warnings weak ignored).length])

theorem succeeds_checkPolicy_iff :
    (checkPolicy p).succeeds = true ↔ ∃ s, (p.selection .builtin).value = .ok s := by
  rw [checkPolicy]
  cases h : (p.selection .builtin).value with
  | error e => simp [Transcript.succeeds]
  | ok s =>
    -- the rule string has been read before, so the second reading succeeds
    obtain ⟨rules, hparse, -⟩ := Selection.exists_parse_of_ofRuleString h
    simp [hparse, Transcript.succeeds]

variable {codecs : Policy.Format → Codec} {file document : Text}

theorem succeeds_checkFile (h : (Policy.Format.ofPath file).parse codecs document = .ok p) :
    (checkFile codecs file (.ok document)).succeeds = (checkPolicy p).succeeds := by
  simp only [checkFile, h]
  rfl

/-- The lines of a check that succeeds. -/
theorem lines_checkFile (h : (Policy.Format.ofPath file).parse codecs document = .ok p)
    (hs : (p.selection .builtin).value = .ok s) :
    (checkFile codecs file (.ok document)).lines =
      reportLines file p s (weakSuites s.suites) (unknownCount .builtin p.suites) := by
  obtain ⟨rules, hparse, -⟩ := Selection.exists_parse_of_ofRuleString hs
  simp only [checkFile, h, checkPolicy, hs, hparse, (weakCount_names hs).2, ignoredCount_eq hparse]
  rfl

/-! ### Finding lines in the report -/

section Lines

variable {weak ignored n : Nat} {t : Text}

/-- A line about the policy has a good mark. -/
theorem exists_marked_of_mem_policyLines {line : Text} (h : line ∈ policyLines p) :
    ∃ t, line = marked goodMark t := by
  unfold policyLines at h
  rcases List.mem_cons.1 h with rfl | h
  · exact ⟨_, rfl⟩
  · split at h
    · exact ⟨_, List.mem_singleton.1 h⟩
    · cases h

theorem warning_mem_reportLines_iff :
    marked warningMark t ∈ reportLines file p s weak ignored ↔ t ∈ warnings weak ignored := by
  have hheading : marked warningMark t ≠ Text.of "Checking policy: " ++ file := by
    rintro ⟨⟩
  have hpolicy : marked warningMark t ∉ policyLines p := fun h => by
    obtain ⟨u, hu⟩ := exists_marked_of_mem_policyLines h
    exact marked_good_ne_warning hu.symm
  have hgood : ∀ u, marked warningMark t ≠ marked goodMark u := fun u hu =>
    marked_good_ne_warning hu.symm
  have hempty : marked warningMark t ≠ [] := by
    rintro ⟨⟩
  have hconclusion : marked warningMark t ≠ conclusion (warnings weak ignored).length := by
    rw [conclusion]
    split <;> rintro ⟨⟩
  rw [reportLines, List.mem_cons, or_iff_right hheading]
  simp [hpolicy, hgood, hempty, hconclusion, marked_inj]

/-- A warning has one of two wordings, behind a number that is not zero. -/
theorem mem_warnings_iff {words : Text} :
    Text.ofNat n ++ ' ' :: words ∈ warnings weak ignored ↔
      0 < weak ∧ n = weak ∧ words = .of "weak suite(s) selected" ∨
      0 < ignored ∧ n = ignored ∧
        words = .of "token(s) name unknown suites and were ignored" := by
  rw [warnings, List.mem_append, List.mem_ite_nil_right, List.mem_ite_nil_right,
    List.mem_singleton, List.mem_singleton]
  exact or_congr (and_congr_right fun _ => Text.ofNat_append_inj)
    (and_congr_right fun _ => Text.ofNat_append_inj)

theorem weakWarning_mem_reportLines_iff :
    weakWarning n ∈ reportLines file p s weak ignored ↔ 0 < n ∧ n = weak := by
  rw [weakWarning, warning_mem_reportLines_iff]
  refine mem_warnings_iff.trans ⟨?_, ?_⟩
  · rintro (⟨hpos, rfl, -⟩ | ⟨-, -, hwords⟩)
    · exact ⟨hpos, rfl⟩
    · exact absurd hwords (by decide)
  · rintro ⟨hpos, rfl⟩
    exact Or.inl ⟨hpos, rfl, rfl⟩

theorem ignoredWarning_mem_reportLines_iff :
    ignoredWarning n ∈ reportLines file p s weak ignored ↔ 0 < n ∧ n = ignored := by
  rw [ignoredWarning, warning_mem_reportLines_iff]
  refine mem_warnings_iff.trans ⟨?_, ?_⟩
  · rintro (⟨-, -, hwords⟩ | ⟨hpos, rfl, -⟩)
    · exact absurd hwords (by decide)
    · exact ⟨hpos, rfl⟩
  · rintro ⟨hpos, rfl⟩
    exact Or.inr ⟨hpos, rfl, rfl⟩

theorem unreservedConclusion_mem_reportLines_iff :
    unreservedConclusion ∈ reportLines file p s weak ignored ↔ weak = 0 ∧ ignored = 0 := by
  have hheading : unreservedConclusion ≠ Text.of "Checking policy: " ++ file := by
    rintro ⟨⟩
  have hmarked : ∀ mark t, unreservedConclusion ≠ marked mark t := by
    rintro mark t ⟨⟩
  have hpolicy : unreservedConclusion ∉ policyLines p := fun h => by
    obtain ⟨t, ht⟩ := exists_marked_of_mem_policyLines h
    exact hmarked _ _ ht
  have hwarnings : unreservedConclusion ∉ (warnings weak ignored).map (marked warningMark) :=
    fun h => by
      obtain ⟨t, -, ht⟩ := List.mem_map.1 h
      exact hmarked _ _ ht.symm
  have hempty : unreservedConclusion ≠ [] := by
    rintro ⟨⟩
  have hlast : unreservedConclusion = conclusion (warnings weak ignored).length ↔
      weak = 0 ∧ ignored = 0 := by
    rw [conclusion]
    split
    · rename_i hnone
      have hnil : warnings weak ignored = [] := List.length_eq_zero_iff.1 hnone
      simp only [warnings, List.append_eq_nil_iff, ite_eq_right_iff, List.cons_ne_nil, imp_false,
        Nat.not_lt, Nat.le_zero] at hnil
      exact iff_of_true rfl hnil
    · rename_i hsome
      refine iff_of_false (by rintro ⟨⟩) fun hnone => hsome ?_
      rw [hnone.1, hnone.2]
      rfl
  rw [reportLines, List.mem_cons, or_iff_right hheading, List.mem_append, List.mem_append,
    List.mem_append, or_iff_left hwarnings, or_iff_right hpolicy]
  simp [hmarked, hempty, hlast]

end Lines

/-! ### The whole report -/

/-- **What a check reports**, of every policy that the parser of the file gives, whatever the codecs
are.  It succeeds exactly if the policy selects something.  The rule string can then be read a
second time, with no more rules than tokens; looking up the selected names finds every selected
suite.  The warning about weak suites stands in the report with the number of suites below medium
strength, and that about unknown suites with the number of tokens that name one, each exactly if
there are any; there are no reservations exactly if there are neither. -/
theorem check_reports (codecs : Policy.Format → Codec) (file document : Text) (p : Policy)
    (h : (Policy.Format.ofPath file).parse codecs document = .ok p) :
    ((checkFile codecs file (.ok document)).succeeds = true ↔
      ∃ s, (p.selection .builtin).value = .ok s) ∧
    ∀ s, (p.selection .builtin).value = .ok s →
      (∃ rules, (parse .builtin p.suites).value = .ok rules ∧
        rules.length ≤ (pieces separator p.suites).length ∧
        (pieces separator p.suites).length - rules.length = unknownCount .builtin p.suites) ∧
      s.names.filterMap Catalog.builtin.lookup? = s.suites ∧
      (checkFile codecs file (.ok document)).lines =
        reportLines file p s (weakSuites s.suites) (unknownCount .builtin p.suites) ∧
      (∀ n, weakWarning n ∈ (checkFile codecs file (.ok document)).lines ↔
        0 < n ∧ n = weakSuites s.suites) ∧
      (∀ n, ignoredWarning n ∈ (checkFile codecs file (.ok document)).lines ↔
        0 < n ∧ n = unknownCount .builtin p.suites) ∧
      (unreservedConclusion ∈ (checkFile codecs file (.ok document)).lines ↔
        weakSuites s.suites = 0 ∧ unknownCount .builtin p.suites = 0) := by
  refine ⟨by rw [succeeds_checkFile h, succeeds_checkPolicy_iff], fun s hs => ?_⟩
  obtain ⟨rules, hparse, -⟩ := Selection.exists_parse_of_ofRuleString hs
  have hcount := RuleString.length_add_unknownCount hparse
  rw [lines_checkFile h hs]
  exact ⟨⟨rules, hparse, by omega, by omega⟩, (weakCount_names hs).1, rfl,
    fun _ => weakWarning_mem_reportLines_iff, fun _ => ignoredWarning_mem_reportLines_iff,
    unreservedConclusion_mem_reportLines_iff⟩

/-- A policy with one suite for export and one that is not known: both warnings. -/
theorem check_reports_both_warnings :
    (check (.of "old.toml")
      (.ok (.of "name = 'old'\nsuites = 'EXP-RC4-MD5 : !NO-SUCH'"))).succeeds = true ∧
    weakWarning 1 ∈ (check (.of "old.toml")
      (.ok (.of "name = 'old'\nsuites = 'EXP-RC4-MD5 : !NO-SUCH'"))).lines ∧
    ignoredWarning 1 ∈ (check (.of "old.toml")
      (.ok (.of "name = 'old'\nsuites = 'EXP-RC4-MD5 : !NO-SUCH'"))).lines := by
  have hparse : (Policy.Format.ofPath (.of "old.toml")).parse Policy.Format.codec
      (.of "name = 'old'\nsuites = 'EXP-RC4-MD5 : !NO-SUCH'") =
      .ok ⟨.of "old", .of "EXP-RC4-MD5 : !NO-SUCH", none⟩ := by decide +kernel
  have hread : (parse .builtin (.of "EXP-RC4-MD5 : !NO-SUCH")).value =
      .ok [⟨.add, .name [.of "TLS_RSA_EXPORT_WITH_RC4_40_MD5"]⟩] := by rfl
  obtain ⟨hsucceeds, hreport⟩ := check_reports _ _ _ _ hparse
  have hselected := Selection.value_ofRuleString_of_parse hread
  rw [if_neg (by decide +kernel)] at hselected
  obtain ⟨-, -, -, hweak, hignored, -⟩ := hreport _ hselected
  exact ⟨hsucceeds.2 ⟨_, hselected⟩, (hweak 1).2 ⟨by decide, by decide +kernel⟩,
    (hignored 1).2 ⟨by decide, by decide +kernel⟩⟩

end Command

end CipherRules
