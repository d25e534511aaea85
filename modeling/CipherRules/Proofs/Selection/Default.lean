import CipherRules.Proofs.Selection.Class
import Mathlib.Data.List.Nodup

/-!
# Selections — The default

Which suites the default selection has, in any catalog.  A keyword by itself selects its class
(`value_ofRuleString_keyword`): no name has to be found for it, so the catalog plays no part in the
reading.  The complement of the default is the class of the suites that are not of default grade
(`accepts_complementOfDefault`), and it has a keyword too: the two keywords share out the catalog
between them (`default_partitions`).
-/

namespace CipherRules

open RuleString (parse)

namespace RuleString

/-- A keyword is read as the rule that adds its class, whatever the catalog. -/
theorem value_parse_keyword (catalog : Catalog) {w : Text} {p : Predicate}
    (h : (w, p) ∈ Keyword.table) : (parse catalog w).value = .ok [⟨.add, p⟩] := by
  have hword : Word w := Keyword.word_of_mem h
  have short : ∀ e ∈ Keyword.table, Text.byteLength e.1 ≤ Limits.ruleStringBytes := by
    decide +kernel
  have hbody : Clause.parseBody .add w = .ok (.apply .add (.keyword p) []) := by
    refine parseBody_eq_ok_iff.2 ⟨hword.ne_nil, hword.no_leading_mark, ?_, .keyword p, [], ?_, rfl⟩
    · rw [Text.pieces_of_not_mem hword.no_termSeparator]
      exact Nat.le_add_left 1 15
    · rw [Text.pieces_of_not_mem hword.no_termSeparator, List.map_singleton,
        Term.parse_keyword h, List.map_singleton]
  have hadd : Operation.add ≠ .sortByStrength := by decide
  have hclause : Clause.parse w = .ok (.apply .add (.keyword p) []) :=
    (Clause.parse_sign_append hadd hword.ne_nil hword.no_leading_mark).trans hbody
  have hsep : ∀ t ∈ [w], separator ∉ t := fun t ht => List.mem_singleton.1 ht ▸ hword.no_separator
  have htrim : ∀ t ∈ [w], Text.trim t = t := fun t ht => by
    rw [List.mem_singleton.1 ht]
    exact Text.trim_eq_self hword.no_leading_blank hword.no_trailing_blank
  exact (value_parse_join_eq_ok_iff (List.cons_ne_nil w []) hsep htrim).2
    ⟨short _ h, Nat.le_add_left 1 255, [.apply .add (.keyword p) []], congrArg ([·]) hclause, rfl⟩

end RuleString

/-- A suite that is worth selecting unless it is asked for more precisely: it authenticates and
encrypts, its cipher is not RC4, and it is of medium strength at least. -/
def Suite.DefaultGrade (s : Suite) : Prop :=
  s.authentication ≠ .null ∧ s.encryption ≠ .null ∧ s.encryption ≠ .rc4 ∧
    (s.strength = .medium ∨ s.strength = .high)

instance : DecidablePred Suite.DefaultGrade := fun _ => inferInstanceAs (Decidable (_ ∧ _))

/-- The complement of the default leaves out exactly the suites of default grade. -/
theorem Keyword.accepts_complementOfDefault {s : Suite} :
    complementOfDefault.accepts s = true ↔ ¬ s.DefaultGrade := by
  have hweak : s.strength ∈ ValueSet.ofList [.none, .exportGrade, .low] ↔
      ¬ (s.strength = .medium ∨ s.strength = .high) := by
    cases s.strength <;> decide
  simp only [complementOfDefault, Predicate.accepts, Predicate.authentication,
    Predicate.encryption, Predicate.strength, Condition.accepts, hweak, ValueSet.mem_ofList,
    List.mem_singleton, Bool.or_eq_true, decide_eq_true_eq, Suite.DefaultGrade]
  tauto

namespace Selection

variable {catalog : Catalog} {w v : Text} {p : Predicate}

/-- **A keyword selects its class from every catalog**, and the rule is its first spelling. -/
theorem value_ofRuleString_keyword (catalog : Catalog) (h : (w, p) ∈ Keyword.table)
    (hv : Keyword.spelling? p = some v) :
    (ofRuleString catalog w).value =
      if catalog.suites.filter p.accepts = [] then .error (.emptySelection v)
      else .ok ⟨catalog.suites.filter p.accepts, v⟩ := by
  have low : ∀ e ∈ Keyword.table, e.2.height ≤ Limits.predicateDepth := by decide +kernel
  have hdirective : p.directive? = some v :=
    RuleString.directive?_eq_some_iff.2
      ⟨low _ h, (RuleString.Written.writeDirective?_of_spelling? hv).1⟩
  have hadd : Operation.add ≠ .sortByStrength := by decide
  exact value_ofRuleString_of_add (RuleString.value_parse_keyword catalog h)
    (RuleString.text_of_directive? hadd hdirective)

/-- The suites of an outcome.  An error has none. -/
def chosen : Except SelectionError Selection → List Suite
  | .ok s => s.suites
  | .error _ => []

section Outcome

variable {outcome : Except SelectionError Selection} {suites : List Suite} {rule : Text}

theorem chosen_of_eq
    (h : outcome = if suites = [] then .error (.emptySelection rule) else .ok ⟨suites, rule⟩) :
    chosen outcome = suites := by
  by_cases hnil : suites = []
  · rw [h, if_pos hnil, hnil]
    rfl
  · rw [h, if_neg hnil]
    rfl

theorem exists_emptySelection_iff
    (h : outcome = if suites = [] then .error (.emptySelection rule) else .ok ⟨suites, rule⟩) :
    (∃ text, outcome = .error (.emptySelection text)) ↔ suites = [] := by
  by_cases hnil : suites = []
  · simp [h, hnil]
  · simp [h, hnil]

end Outcome

theorem filter_accepts_complementOfDefault (catalog : Catalog) :
    catalog.suites.filter Keyword.complementOfDefault.accepts =
      catalog.suites.filter (¬ ·.DefaultGrade) :=
  List.filter_congr fun s _ => by
    rw [Bool.eq_iff_iff, Keyword.accepts_complementOfDefault, decide_eq_true_iff]

theorem filter_accepts_default (catalog : Catalog) :
    catalog.suites.filter (Predicate.not Keyword.complementOfDefault).accepts =
      catalog.suites.filter (·.DefaultGrade) :=
  List.filter_congr fun s _ => by
    rw [Bool.eq_iff_iff, Predicate.accepts, Bool.not_eq_true', ← Bool.not_eq_true,
      Keyword.accepts_complementOfDefault, decide_eq_true_iff, not_not]

/-- **The default selection has exactly the suites of default grade**, in the order of the catalog,
and fails exactly if there is none; the keyword for its complement selects exactly the other suites.
So every suite of the catalog is in one of the two selections, and none is in both. -/
theorem default_partitions (catalog : Catalog) :
    (ofDefault catalog).value =
      (if catalog.suites.filter (·.DefaultGrade) = [] then
        .error (.emptySelection (.of "DEFAULT"))
      else .ok ⟨catalog.suites.filter (·.DefaultGrade), .of "DEFAULT"⟩) ∧
    ((∃ rule, (ofDefault catalog).value = .error (.emptySelection rule)) ↔
      ∀ s ∈ catalog.suites, ¬ s.DefaultGrade) ∧
    (ofRuleString catalog (.of "COMPLEMENTOFDEFAULT")).value =
      (if catalog.suites.filter (¬ ·.DefaultGrade) = [] then
        .error (.emptySelection (.of "COMPLEMENTOFDEFAULT"))
      else .ok ⟨catalog.suites.filter (¬ ·.DefaultGrade), .of "COMPLEMENTOFDEFAULT"⟩) ∧
    (chosen (ofDefault catalog).value ++
      chosen (ofRuleString catalog (.of "COMPLEMENTOFDEFAULT")).value).Perm catalog.suites ∧
    (chosen (ofDefault catalog).value).Disjoint
      (chosen (ofRuleString catalog (.of "COMPLEMENTOFDEFAULT")).value) := by
  have hdefault := value_ofRuleString_keyword catalog (w := defaultRuleString) (v := .of "DEFAULT")
    (p := .not Keyword.complementOfDefault) (by decide +kernel) (by decide +kernel)
  have hothers := value_ofRuleString_keyword catalog (w := .of "COMPLEMENTOFDEFAULT")
    (v := .of "COMPLEMENTOFDEFAULT") (p := Keyword.complementOfDefault) (by decide +kernel)
    (by decide +kernel)
  rw [filter_accepts_default] at hdefault
  rw [filter_accepts_complementOfDefault] at hothers
  have hperm : (chosen (ofDefault catalog).value ++
      chosen (ofRuleString catalog (.of "COMPLEMENTOFDEFAULT")).value).Perm catalog.suites := by
    rw [ofDefault, chosen_of_eq hdefault, chosen_of_eq hothers]
    simpa using List.filter_append_perm (fun s : Suite => decide s.DefaultGrade) catalog.suites
  refine ⟨hdefault, ?_, hothers, hperm, ?_⟩
  · rw [ofDefault, exists_emptySelection_iff hdefault, List.filter_eq_nil_iff]
    simp only [decide_eq_true_eq]
  · exact List.disjoint_of_nodup_append (hperm.nodup_iff.2 catalog.nodup_suites)

/-- Where there are only RC4 suites the default selects nothing.  Of the builtin catalog it selects
thirty-eight suites. -/
theorem default_partitions_rc4 :
    (∃ rule, (ofDefault (Catalog.builtin.part (·.encryption = .rc4))).value =
      .error (.emptySelection rule)) ∧
    ∃ selection, (ofDefault .builtin).value = .ok selection ∧ selection.size = 38 := by
  obtain ⟨-, hempty, -⟩ := default_partitions (Catalog.builtin.part (·.encryption = .rc4))
  obtain ⟨hvalue, -⟩ := default_partitions .builtin
  refine ⟨hempty.2 fun s hs hgrade => ?_, _, hvalue.trans (if_neg (by decide +kernel)), ?_⟩
  · obtain ⟨-, hrc4⟩ := Catalog.mem_part.1 hs
    exact hgrade.2.2.1 (of_decide_eq_true hrc4)
  · decide +kernel

end Selection

end CipherRules
