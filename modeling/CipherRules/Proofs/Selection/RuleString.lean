import CipherRules.Proofs.RuleString.RoundTrip
import CipherRules.Proofs.RuleString.Validity
import CipherRules.Proofs.Selection.Deletion

/-!
# Selections — The outcome of a rule string

A rule string is refused by the reader, or its rules are built.  The limits of the reader leave
nothing to refuse for those of the build (`withinLimits_of_parse`): there are no more rules than
tokens, and sixteen terms do not nest too deeply.

Nor does the build leave out any of the rules.  No term folds to false, and a conjunction folds to
false only if an operand does, so no rule of a rule string is visibly without effect
(`not_isVacuous_of_parse`).  The outcome shows the rules as they were read
(`value_ofRuleString_eq`).
-/

namespace CipherRules

/-- A rule whose class does not fold to false is not visibly without effect. -/
theorem Rule.not_isVacuous_of_not_foldsToFalse {r : Rule}
    (h : r.predicate.foldsToFalse = false) : r.isVacuous = false := by
  refine Bool.eq_false_iff.2 fun hvacuous => ?_
  have hfalse := (Predicate.isAlwaysFalse_iff.1 (Rule.isVacuous_iff.1 hvacuous).2.2).2
  rw [h] at hfalse
  cases hfalse

namespace RuleString

variable {catalog : Catalog} {input : Text} {rules : List Rule}

/-! ### Rules with an effect -/

/-- What holds of the class of each term, and of the conjunction of any two classes of which it
holds, holds of the class of a clause. -/
theorem Clause.predicate_induction {P : Predicate → Prop}
    (hterm : ∀ (t : Term) (p : Predicate), t.Sound → t.resolve? catalog = some p → P p)
    (hand : ∀ p q, P p → P q → P (.and p q)) {clause : Clause} {r : Rule} (hsound : clause.Sound)
    (h : clause.resolve? catalog = some r) : P r.predicate := by
  cases clause with
  | sortByStrength =>
    cases h
    exact hterm (.keyword .always) .always ⟨.of "ALL", List.mem_cons_self⟩ rfl
  | apply op first others =>
    obtain ⟨p, ps, hterms, rfl⟩ := Clause.resolve?_eq_some_iff.1 h
    cases (List.forall₂_and_left _ _).2 ⟨hsound.2.1, hterms⟩ with
    | cons hfirst hothers =>
      have hp : P p := hterm first p hfirst.1 hfirst.2
      show P (ps.foldl .and p)
      clear hterms hfirst hsound h
      -- the conjunction so far has the property
      induction hothers generalizing p with
      | nil => exact hp
      | cons hq _ ih => exact ih _ (hand _ _ hp (hterm _ _ hq.1 hq.2))

/-- No term folds to false: no keyword does, and neither does the name of a suite. -/
theorem Term.not_foldsToFalse_of_resolve? {t : Term} {p : Predicate} (hsound : t.Sound)
    (h : t.resolve? catalog = some p) : p.foldsToFalse = false := by
  cases t with
  | keyword q =>
    cases h
    obtain ⟨w, hw⟩ := hsound
    have hopen : ∀ e ∈ Keyword.table, e.2.foldsToFalse = false := by decide +kernel
    exact hopen _ hw
  | suite n =>
    obtain ⟨s, -, rfl⟩ := Option.map_eq_some_iff.1 h
    rfl

/-- No rule of a rule string is visibly without effect. -/
theorem not_isVacuous_of_parse (h : (parse catalog input).value = .ok rules) :
    ∀ r ∈ rules, r.isVacuous = false := by
  intro r hr
  obtain ⟨clause, hsound, hrule⟩ := (exists_resolve?_of_parse h).2 r hr
  refine Rule.not_isVacuous_of_not_foldsToFalse ?_
  refine Clause.predicate_induction (P := fun p => p.foldsToFalse = false)
    (fun _ _ => Term.not_foldsToFalse_of_resolve?) (fun p q hp hq => ?_) hsound hrule
  rw [Predicate.foldsToFalse, hp, hq]
  rfl

/-! ### Events -/

/-- The reader reports no rule as left out. -/
theorem skippedRule_not_mem_events_rulesOf (text : Text) : ∀ tokens : List Token,
    .skippedRule text ∉ (rulesOf catalog tokens).events
  | [] => List.not_mem_nil
  | token :: rest => by
      have hrest := skippedRule_not_mem_events_rulesOf text rest
      rw [rulesOf]
      cases Clause.parse token.text with
      | error fault => exact List.not_mem_nil
      | ok clause => cases hrule : clause.resolve? catalog <;> simp [hrule, hrest]

theorem skippedRule_not_mem_events_parse (text : Text) :
    .skippedRule text ∉ (parse catalog input).events := by
  rw [parse_eq]
  split
  · exact List.not_mem_nil
  · split
    · exact List.not_mem_nil
    · exact skippedRule_not_mem_events_rulesOf text _

end RuleString

namespace Selection

open RuleString (parse not_isVacuous_of_parse)
open Text (byteLength)
open WorkingSet (after)

variable {catalog : Catalog} {input : Text} {rules : List Rule}

/-- A run reports no rule as left out if all of them have an effect. -/
theorem skippedRule_not_mem_events_run (text : Text) : ∀ {rules : List Rule} (w : WorkingSet),
    (∀ r ∈ rules, r.isVacuous = false) → .skippedRule text ∉ (run catalog w rules).events
  | [], _, _ => List.not_mem_nil
  | r :: rest, w, h => by
      have hr : r.isVacuous = false := h r List.mem_cons_self
      have hrest := skippedRule_not_mem_events_run text (w.apply catalog r)
        fun q hq => h q (List.mem_cons_of_mem r hq)
      simp [run, hr, hrest]

theorem skippedRule_not_mem_events_build (text : Text) (h : ∀ r ∈ rules, r.isVacuous = false) :
    .skippedRule text ∉ (build catalog rules).events := by
  rw [build]
  split
  · exact List.not_mem_nil
  · exact skippedRule_not_mem_events_run text _ h

theorem effective_of_parse (h : (parse catalog input).value = .ok rules) :
    effective rules = rules :=
  List.filter_eq_self.2 fun r hr => by rw [not_isVacuous_of_parse h r hr]; rfl

/-- From a rule string to its selection no rule is reported as left out. -/
theorem skippedRule_not_mem_events_ofRuleString (catalog : Catalog) (input text : Text) :
    .skippedRule text ∉ (ofRuleString catalog input).events := by
  have hparse : .skippedRule text ∉ (parse catalog input).events :=
    RuleString.skippedRule_not_mem_events_parse text
  rw [ofRuleString, Traced.andThen]
  cases h : (parse catalog input).value with
  | error e => exact hparse
  | ok rules =>
    have hbuild : .skippedRule text ∉ (build catalog rules).events :=
      skippedRule_not_mem_events_build text (not_isVacuous_of_parse h)
    exact fun hmem => (List.mem_append.1 hmem).elim hparse hbuild

/-! ### Outcomes -/

theorem value_ofRuleString_of_error {e : SelectionError}
    (h : (parse catalog input).value = .error e) :
    (ofRuleString catalog input).value = .error e := by
  rw [ofRuleString, Traced.andThen, h]

/-- The outcome of rules that were read shows all of them. -/
theorem value_ofRuleString_of_parse (h : (parse catalog input).value = .ok rules) :
    (ofRuleString catalog input).value =
      if (after catalog rules).order = [] then .error (.emptySelection (Rule.listText rules))
      else .ok ⟨(after catalog rules).suites catalog, Rule.listText rules⟩ := by
  have hlimits : WithinLimits rules := withinLimits_of_parse h
  have heffective : effective rules = rules := effective_of_parse h
  rw [value_ofRuleString_of_ok h]
  split
  · rename_i hnil
    rw [value_build_of_order_eq_nil hlimits hnil, heffective]
  · rename_i hne
    rw [value_build_of_order_ne_nil hlimits hne, heffective]

/-- Within the limits a rule string is refused for a token. -/
theorem exists_badToken_of_parse {e : SelectionError}
    (hbytes : byteLength input ≤ Limits.ruleStringBytes)
    (hcount : input.count ':' + 1 ≤ Limits.rules) (h : (parse catalog input).value = .error e) :
    ∃ token position fault, e = .badToken token position fault := by
  obtain ⟨token, -, htoken⟩ :=
    RuleString.exists_token_of_fault? hbytes hcount (RuleString.value_parse_eq_error_iff.1 h)
  obtain ⟨fault, -, rfl⟩ := RuleString.Token.fault?_eq_some_iff.1 htoken
  exact ⟨_, _, _, rfl⟩

theorem value_ofRuleString_ne_predicateTooDeep (catalog : Catalog) (input : Text) :
    (ofRuleString catalog input).value ≠ .error .predicateTooDeep := by
  cases h : (parse catalog input).value with
  | error e =>
    rw [value_ofRuleString_of_error h]
    intro hdeep
    cases hdeep
    exact RuleString.fault?_ne_predicateTooDeep (RuleString.value_parse_eq_error_iff.1 h)
  | ok rules =>
    rw [value_ofRuleString_of_parse h]
    split <;> simp

/-- **The outcome of every rule string.**  One that is too long is refused for its length, then one
with too many tokens for their number, then one with a token that cannot be read for the first such
token.  The rules of any other make a selection or leave no suite selected, and either outcome shows
them as they were read: the build finds nothing to refuse in them, and nothing to leave out. -/
theorem value_ofRuleString_eq (catalog : Catalog) (input : Text) :
    (ofRuleString catalog input).value =
      (if Limits.ruleStringBytes < byteLength input then
        .error (.ruleStringTooLong (byteLength input))
      else if Limits.rules < input.count ':' + 1 then .error (.tooManyRules (input.count ':' + 1))
      else match (parse catalog input).value with
        | .error e => .error e
        | .ok rules =>
            if (after catalog rules).order = [] then .error (.emptySelection (Rule.listText rules))
            else .ok ⟨(after catalog rules).suites catalog, Rule.listText rules⟩) ∧
    (byteLength input ≤ Limits.ruleStringBytes → input.count ':' + 1 ≤ Limits.rules →
      ∀ e, (parse catalog input).value = .error e →
        ∃ token position fault, e = .badToken token position fault) ∧
    (ofRuleString catalog input).value ≠ .error .predicateTooDeep ∧
    (∀ rules, (parse catalog input).value = .ok rules →
      checkLimits rules = .ok () ∧ ∀ r ∈ rules, r.isVacuous = false) ∧
    ∀ text, .skippedRule text ∉ (ofRuleString catalog input).events := by
  refine ⟨?_, fun hbytes hcount e => exists_badToken_of_parse hbytes hcount,
    value_ofRuleString_ne_predicateTooDeep catalog input,
    fun rules h => ⟨checkLimits_of_within (withinLimits_of_parse h), not_isVacuous_of_parse h⟩,
    skippedRule_not_mem_events_ofRuleString catalog input⟩
  split
  · rename_i hlong
    exact value_ofRuleString_of_error (RuleString.value_parse_of_tooLong hlong)
  · rename_i hlong
    have hbytes : byteLength input ≤ Limits.ruleStringBytes := Nat.le_of_not_lt hlong
    split
    · rename_i hmany
      exact value_ofRuleString_of_error (RuleString.value_parse_of_tooMany hbytes hmany)
    · cases h : (parse catalog input).value with
      | error e => exact value_ofRuleString_of_error h
      | ok rules => exact value_ofRuleString_of_parse h

/-- Suites without encryption, added and deleted: the error shows both rules under the first
spelling of the keyword.  A keyword in lower case is no keyword. -/
theorem value_ofRuleString_unencrypted :
    (ofRuleString Catalog.builtin (.of "NULL:!NULL")).value =
      .error (.emptySelection (.of "eNULL:!eNULL")) ∧
    checkLimits [⟨.add, .encryption [.null]⟩, ⟨.delete, .encryption [.null]⟩] = .ok () ∧
    ∃ token position fault, (parse Catalog.builtin (.of "NULL:!null")).value =
      .error (.badToken token position fault) := by
  have hread : (parse Catalog.builtin (.of "NULL:!NULL")).value =
      .ok [⟨.add, .encryption [.null]⟩, ⟨.delete, .encryption [.null]⟩] := rfl
  have hfault : (parse Catalog.builtin (.of "NULL:!null")).value =
      .error (.badToken (.of "!null") 5 .unknownKeyword) := rfl
  have hdirective : (Predicate.encryption [.null]).directive? = some (.of "eNULL") :=
    RuleString.directive?_eq_some_iff.2 ⟨by decide, by decide +kernel⟩
  have htext : Rule.listText [⟨.add, .encryption [.null]⟩, ⟨.delete, .encryption [.null]⟩] =
      .of "eNULL:!eNULL" := by
    rw [Rule.listText, List.map_cons, List.map_singleton,
      RuleString.text_of_directive? (by decide) hdirective,
      RuleString.text_of_directive? (by decide) hdirective]
    rfl
  obtain ⟨hvalue, -, -, hrules, -⟩ := value_ofRuleString_eq Catalog.builtin (.of "NULL:!NULL")
  obtain ⟨-, hbad, -⟩ := value_ofRuleString_eq Catalog.builtin (.of "NULL:!null")
  refine ⟨?_, (hrules _ hread).1, ?_⟩
  · have hempty : (after Catalog.builtin
        [⟨.add, .encryption [.null]⟩, ⟨.delete, .encryption [.null]⟩]).order = [] := by
      decide +kernel
    rw [hvalue, if_neg (by decide), if_neg (by decide), hread]
    exact (if_pos hempty).trans (by rw [htext])
  · obtain ⟨token, position, fault, he⟩ := hbad (by decide) (by decide) _ hfault
    exact ⟨token, position, fault, hfault.trans (congrArg _ he)⟩

end Selection

end CipherRules
