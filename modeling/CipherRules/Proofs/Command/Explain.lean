import CipherRules.Command.Evaluate
import CipherRules.Command.Explain
import CipherRules.Proofs.Command.Lines
import CipherRules.Proofs.Selection.Class
import Mathlib.Data.List.Forall2

/-!
# Commands — What an explanation says

An explanation agrees with the selections that it talks about.  It counts suites by going through
the catalog with the class of each rule; the counts are those of the selections that the directives
of the rules make, each taken as a rule string of its own (`selectsExactly_of_parse`).  The last
line has the number of suites that an evaluation of the whole rule string prints.

* `entry_of_parse`: what is printed about a rule of a rule string.
* `explain_agrees`: the whole explanation.
-/

namespace CipherRules.Command

open RuleString (parse)

/-! ### Counts -/

/-- The rule string, taken by itself, selects so many suites from the builtin catalog; to select
none is the error that says so. -/
def SelectsExactly (rule : Text) (n : Nat) : Prop :=
  (n = 0 ∧ ∃ text, (Selection.ofRuleString .builtin rule).value = .error (.emptySelection text)) ∨
  (0 < n ∧ ∃ s, (Selection.ofRuleString .builtin rule).value = .ok s ∧ s.size = n)

variable {input : Text} {rules : List Rule} {r : Rule}

/-- The text of a rule of a rule string is its sign and a text that selects as many suites as its
class has. -/
theorem selectsExactly_of_parse (h : (parse .builtin input).value = .ok rules) (hr : r ∈ rules)
    (hop : r.operation ≠ .sortByStrength) :
    ∃ d, r.text = r.operation.sign ++ d ∧ SelectsExactly d (acceptedCount r.predicate) := by
  obtain ⟨hnamed, d, hd, hfew⟩ := RuleString.exists_directive_of_parse h hr
  have hvalue := Selection.value_ofRuleString_directive hnamed hd hfew
  have hcount : acceptedCount r.predicate =
      (Catalog.builtin.suites.filter r.predicate.accepts).length := List.countP_eq_length_filter
  refine ⟨d, RuleString.text_of_directive? hop hd, ?_⟩
  by_cases hnil : Catalog.builtin.suites.filter r.predicate.accepts = []
  · rw [if_pos hnil] at hvalue
    exact Or.inl ⟨by rw [hcount, hnil]; rfl, _, hvalue⟩
  · rw [if_neg hnil] at hvalue
    exact Or.inr ⟨by rw [hcount]; exact List.length_pos_iff.2 hnil, _, hvalue, hcount.symm⟩

/-! ### Entries -/

/-- The line about a rule that applies to so many suites; a warning marks a rule that applies to
none. -/
def entryLine (n : Nat) (r : Rule) (count : Nat) : Text :=
  numbered (if count = 0 then warningMark else goodMark) n (Text.alignLeft 24 r.text) ++ [' ']
    ++ r.operation.label ++ Text.of ": " ++ r.predicate.description ++ Text.of " ("
    ++ suiteCount count ++ [')']

/-- The line about a class that is the whole catalog. -/
def everySuiteLine : Text := .of "        matches every suite"

/-- The line about a rule without effect. -/
def skippedLine : Text := .of "        matches no suite; skipped"

/-- What is printed about the rule with a number: for the sorting only that it is there, and for any
other rule how many suites its text selects without the sign. -/
inductive Entry (n : Nat) : Rule → List Text → Prop where
  | sorting {r : Rule} (h : r.operation = .sortByStrength) :
      Entry n r [numbered goodMark n Rule.strengthDirective]
  | counted {r : Rule} {d : Text} {count : Nat} (hop : r.operation ≠ .sortByStrength)
      (htext : r.text = r.operation.sign ++ d) (hcount : SelectsExactly d count) :
      Entry n r
        (entryLine n r count :: if r.predicate.isAlwaysTrue then [everySuiteLine] else [])

/-- What is printed about a rule of a rule string. -/
theorem entry_of_parse (h : (parse .builtin input).value = .ok rules) (hr : r ∈ rules) (n : Nat) :
    Entry n r (explainRule n r) := by
  by_cases hop : r.operation = .sortByStrength
  · have htext : r.text = Rule.strengthDirective := by rw [Rule.text, if_pos hop]
    rw [explainRule, if_pos hop, htext]
    exact .sorting hop
  · obtain ⟨d, htext, hcount⟩ := selectsExactly_of_parse h hr hop
    have heffect : r.isVacuous = false := RuleString.not_isVacuous_of_parse h r hr
    have hmark : (if acceptedCount r.predicate == 0 then warningMark else goodMark) =
        if acceptedCount r.predicate = 0 then warningMark else goodMark := by
      simp only [beq_iff_eq]
    have hlines : explainRule n r = entryLine n r (acceptedCount r.predicate) ::
        if r.predicate.isAlwaysTrue then [everySuiteLine] else [] := by
      simp only [explainRule, if_neg hop, heffect, Bool.false_or, hmark]
      rfl
    rw [hlines]
    exact .counted hop htext hcount

/-- No line of an entry is the one about a rule without effect. -/
theorem Entry.skippedLine_not_mem {n : Nat} {lines : List Text} (h : Entry n r lines) :
    skippedLine ∉ lines := by
  cases h with
  | sorting h =>
    have hline : skippedLine ≠ numbered goodMark n Rule.strengthDirective := by
      rintro ⟨⟩
    exact fun hmem => hline (List.mem_singleton.1 hmem)
  | @counted d count hop htext hcount =>
    have hline : skippedLine ≠ entryLine n r count := by
      unfold entryLine
      split <;> rintro ⟨⟩
    have hevery : skippedLine ≠ everySuiteLine := by decide
    split <;> simp [hline, hevery]

/-! ### The whole explanation -/

theorem explainRules_eq_flatten : ∀ (n : Nat) (rules : List Rule),
    explainRules n rules = ((rules.zipIdx n).map fun e => explainRule e.2 e.1).flatten
  | _, [] => rfl
  | n, r :: rest => by
      rw [explainRules, explainRules_eq_flatten (n + 1) rest, List.zipIdx_cons, List.map_cons,
        List.flatten_cons]

/-- The last line of an explanation that ends with a selection of so many suites. -/
def selectedLine (n : Nat) : Text := goodMark ++ [' '] ++ suiteCount n ++ Text.of " selected"

theorem selectedLine_inj {m n : Nat} : selectedLine m = selectedLine n ↔ m = n := by
  refine ⟨fun h => ?_, fun h => by rw [h]⟩
  have hcount : ∀ k, selectedLine k = '✓' :: ' ' ::
      (Text.ofNat k ++ ' ' :: Text.of "suite(s) selected") := fun k => by
    simp [selectedLine, suiteCount, goodMark]
  rw [hcount, hcount] at h
  exact (Text.ofNat_append_inj.1 (List.cons.inj (List.cons.inj h).2).2).1

theorem verdict_error_ne_selectedLine {e : SelectionError} {n : Nat} :
    verdict (.error e) ≠ selectedLine n := by
  rintro ⟨⟩

/-- What an evaluation prints, it prints in lines, one for each suite selected. -/
theorem evaluateRule_selects_iff {otherNames : Bool} {n : Nat} :
    (evaluateRule input otherNames).succeeds = true ∧
        (evaluateRule input otherNames).lines.length = n ↔
      verdict (Selection.ofRuleString .builtin input).value = selectedLine n := by
  rw [evaluateRule]
  cases (Selection.ofRuleString .builtin input).value with
  | error e =>
    refine iff_of_false ?_ verdict_error_ne_selectedLine
    rintro ⟨⟨⟩, -⟩
  | ok s =>
    have hlength : (if otherNames then s.opensslNames else s.names).length = s.size := by
      cases otherNames <;> exact List.length_map ..
    refine Iff.trans ?_ selectedLine_inj.symm
    rw [← hlength]
    exact and_iff_right rfl

/-- An explanation of a rule string that is read. -/
theorem lines_explain (h : (parse .builtin input).value = .ok rules) :
    (explain input).lines = (Text.of "Explaining rule: " ++ input) ::
      ((rules.zipIdx 1).map fun e => explainRule e.2 e.1).flatten ++
        [[], verdict (Selection.ofRuleString .builtin input).value] := by
  simp only [explain, h, explainRules_eq_flatten]

theorem explain_of_error {e : SelectionError} (h : (parse .builtin input).value = .error e) :
    (explain input).succeeds = false ∧ (explain input).lines = [] := by
  simp [explain, h, Transcript.succeeds]

/-- No explanation says that a rule is skipped. -/
theorem skippedLine_not_mem_explain (input : Text) : skippedLine ∉ (explain input).lines := by
  cases h : (parse .builtin input).value with
  | error e =>
    rw [(explain_of_error h).2]
    exact List.not_mem_nil
  | ok rules =>
    have hheading : skippedLine ≠ Text.of "Explaining rule: " ++ input := by
      rintro ⟨⟩
    have hempty : skippedLine ≠ [] := by
      rintro ⟨⟩
    have hverdict : skippedLine ≠ verdict (Selection.ofRuleString .builtin input).value := by
      cases (Selection.ofRuleString .builtin input).value <;> rintro ⟨⟩
    have hentries : skippedLine ∉
        ((rules.zipIdx 1).map fun e => explainRule e.2 e.1).flatten := fun hmem => by
      obtain ⟨lines, hlines, hline⟩ := List.mem_flatten.1 hmem
      obtain ⟨e, he, rfl⟩ := List.mem_map.1 hlines
      exact (entry_of_parse h (List.fst_mem_of_mem_zipIdx he) e.2).skippedLine_not_mem hline
    rw [lines_explain h, List.cons_append, List.mem_cons, or_iff_right hheading, List.mem_append,
      or_iff_right hentries]
    simp [hempty, hverdict]

/-- **What an explanation says, of every rule string.**  It fails, and prints nothing, exactly if
the rule string cannot be read.  Otherwise it prints the entries of the rules in their order,
numbered from one, and then the outcome.  An entry has the number of suites that the text of the
rule selects by itself, and a warning exactly if that is none; it never says that a rule is skipped.
The last line has a number of suites exactly if an evaluation succeeds and prints as many lines. -/
theorem explain_agrees (input : Text) :
    ((explain input).succeeds = false ↔ ∃ e, (parse .builtin input).value = .error e) ∧
    ((explain input).succeeds = false → (explain input).lines = []) ∧
    (∀ rules, (parse .builtin input).value = .ok rules →
      ∃ entries outcome, (explain input).lines =
          (Text.of "Explaining rule: " ++ input) :: entries.flatten ++ [[], outcome] ∧
        List.Forall₂ (fun e lines => Entry e.2 e.1 lines) (rules.zipIdx 1) entries) ∧
    skippedLine ∉ (explain input).lines ∧
    ∀ (setting : VariableValue) (otherNames : Bool) (n : Nat),
      (explain input).lines.getLast? = some (selectedLine n) ↔
        (evaluate setting (some input) otherNames).succeeds = true ∧
          (evaluate setting (some input) otherNames).lines.length = n := by
  have hevaluate : ∀ setting otherNames,
      evaluate setting (some input) otherNames = evaluateRule input otherNames := fun _ _ => rfl
  simp only [hevaluate, evaluateRule_selects_iff]
  cases h : (parse .builtin input).value with
  | error e =>
    obtain ⟨hfails, hlines⟩ := explain_of_error h
    rw [hlines, Selection.value_ofRuleString_of_error h]
    refine ⟨iff_of_true hfails ⟨e, rfl⟩, fun _ => rfl, ?_, List.not_mem_nil, fun _ _ n => ?_⟩
    · rintro rules ⟨⟩
    · exact iff_of_false (by rintro ⟨⟩) verdict_error_ne_selectedLine
  | ok rules =>
    have hsucceeds : (explain input).succeeds = true := by
      simp [explain, h, Transcript.succeeds]
    have hentries : List.Forall₂ (fun e lines => Entry e.2 e.1 lines) (rules.zipIdx 1)
        ((rules.zipIdx 1).map fun e => explainRule e.2 e.1) :=
      List.forall₂_map_right_iff.2 (List.forall₂_same.2 fun e he =>
        entry_of_parse h (List.fst_mem_of_mem_zipIdx he) e.2)
    have hskipped := skippedLine_not_mem_explain input
    rw [lines_explain h] at hskipped
    rw [hsucceeds, lines_explain h]
    refine ⟨by simp, by simp, ?_, hskipped, fun _ _ n => ?_⟩
    · rintro others ⟨⟩
      exact ⟨_, _, rfl, hentries⟩
    · rw [List.getLast?_append]
      exact Option.some_inj

/-- Suites with RC4 by strength: an entry with their number, one for the sorting, and that number
again. -/
theorem explain_agrees_rc4 :
    (parse .builtin (.of "RC4:@STRENGTH")).value =
      .ok [⟨.add, .encryption [.rc4]⟩, .sortByStrength] ∧
    (∃ entries outcome, (explain (.of "RC4:@STRENGTH")).lines =
        .of "Explaining rule: RC4:@STRENGTH" :: entries.flatten ++ [[], outcome] ∧
      List.Forall₂ (fun e lines => Entry e.2 e.1 lines)
        [(⟨.add, .encryption [.rc4]⟩, 1), (.sortByStrength, 2)] entries) ∧
    (explain (.of "RC4:@STRENGTH")).lines.getLast? = some (selectedLine 7) := by
  have hread : (parse .builtin (.of "RC4:@STRENGTH")).value =
      .ok [⟨.add, .encryption [.rc4]⟩, .sortByStrength] := by rfl
  have hvalue := Selection.value_ofRuleString_of_parse hread
  rw [if_neg (by decide +kernel)] at hvalue
  obtain ⟨-, -, hentries, -, hlast⟩ := explain_agrees (.of "RC4:@STRENGTH")
  refine ⟨hread, hentries _ hread, (hlast .unset false 7).2 ?_⟩
  refine evaluateRule_selects_iff.2 ?_
  rw [hvalue]
  decide +kernel

end CipherRules.Command
