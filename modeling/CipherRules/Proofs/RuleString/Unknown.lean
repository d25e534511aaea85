import CipherRules.Proofs.RuleString.Grammar

/-!
# Rule strings — Unknown suites

Which tokens of a rule string give no rule, said of their text alone: those with a term that is
shaped like the name of a suite and is none of the catalog's names (`NamesUnknown`).

`length_add_unknownCount`: every token of a rule string that is read gives one rule, unless it is
one of these.
-/

namespace CipherRules.RuleString

open Text (pieces)

variable {catalog : Catalog}

/-- A token without the sign in front of it. -/
def withoutSign : Text → Text
  | [] => []
  | c :: rest => if c ∈ ['+', '-', '!', '&'] then rest else c :: rest

/-- Some term of the token is shaped like the name of a suite, and the catalog has none of this
name. -/
def NamesUnknown (catalog : Catalog) (token : Text) : Prop :=
  ∃ word ∈ pieces '+' (withoutSign token), SuiteShaped word ∧ catalog.lookup? word = none

instance (token : Text) : Decidable (NamesUnknown catalog token) :=
  inferInstanceAs (Decidable (∃ word ∈ _, _ ∧ _))

/-- The number of tokens that name an unknown suite. -/
def unknownCount (catalog : Catalog) (input : Text) : Nat :=
  ((pieces separator input).map Text.trim).countP (NamesUnknown catalog ·)

/-- A body starts with no sign, so only the sign of its token is dropped. -/
theorem withoutSign_sign_append {op : Operation} (hop : op ≠ .sortByStrength) {body : Text}
    (hmark : ∀ c ∈ body.head?, c ∉ marks) : withoutSign (op.sign ++ body) = body := by
  cases op with
  | sortByStrength => exact absurd rfl hop
  | add =>
    cases body with
    | nil => rfl
    | cons c rest =>
      have hc : c ∉ ['+', '-', '!', '&'] := fun hmem =>
        hmark c rfl (List.mem_append_left ['@'] hmem)
      exact if_neg hc
  | _ => rfl

/-- A token that is read gives no rule exactly if it names an unknown suite. -/
theorem resolve?_eq_none_iff_namesUnknown {token : Text} {clause : Clause}
    (h : Clause.parse token = .ok clause) :
    clause.resolve? catalog = none ↔ NamesUnknown catalog token := by
  rcases Clause.parse_eq_ok_iff.1 h with ⟨rfl, rfl⟩ | ⟨op, body, hop, rfl, hbody⟩
  · -- the directive is one word that names nothing
    have hplain : ∀ word ∈ pieces '+' (withoutSign Rule.strengthDirective), ¬ SuiteShaped word := by
      decide
    constructor
    · rintro ⟨⟩
    · rintro ⟨word, hword, hshape, -⟩
      exact absurd hshape (hplain word hword)
  · obtain ⟨words, first, others, hphrase, hreads, rfl⟩ := parseBody_eq_ok_iff_phrase.1 hbody
    rw [Clause.resolve?_eq_none_iff, ← exists_unknown_iff hreads, NamesUnknown,
      withoutSign_sign_append hop hphrase.no_mark, ← Text.splits_iff.1 hphrase.splits]

/-- Each text that is read gives a rule or names an unknown suite. -/
theorem length_add_countP_namesUnknown : ∀ {texts : List Text} {clauses : List Clause},
    Reads texts clauses →
    (clauses.filterMap (·.resolve? catalog)).length + texts.countP (NamesUnknown catalog ·) =
      texts.length
  | [], clauses, h => by
      have hnil : clauses = [] := List.map_eq_nil_iff.1 h.symm
      rw [hnil]
      rfl
  | text :: others, clauses, h => by
      obtain ⟨clause, last, rfl, hclause, hlast⟩ := reads_cons_iff.1 h
      have ih := length_add_countP_namesUnknown hlast
      have hnone : clause.resolve? catalog = none ↔ NamesUnknown catalog text :=
        resolve?_eq_none_iff_namesUnknown hclause
      rw [List.countP_cons, List.length_cons, ← ih]
      cases hrule : clause.resolve? catalog with
      | none =>
        rw [List.filterMap_cons_none hrule, if_pos (decide_eq_true (hnone.1 hrule))]
        rfl
      | some r =>
        have hknown : ¬ NamesUnknown catalog text := fun hunknown => by
          rw [hnone.2 hunknown] at hrule
          cases hrule
        rw [List.filterMap_cons_some hrule, if_neg (by simpa using hknown), List.length_cons]
        exact Nat.add_right_comm _ 1 _

/-- **Every token of a rule string gives one rule, or names an unknown suite and gives none.** -/
theorem length_add_unknownCount {input : Text} {rules : List Rule}
    (h : (parse catalog input).value = .ok rules) :
    rules.length + unknownCount catalog input = (pieces separator input).length := by
  obtain ⟨-, -, clauses, hreads, rfl⟩ := value_parse_eq_ok_iff.1 h
  rw [unknownCount, length_add_countP_namesUnknown hreads, List.length_map]

end CipherRules.RuleString
