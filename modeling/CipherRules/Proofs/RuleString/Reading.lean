import CipherRules.Proofs.RuleString.Clause

/-!
# Rule strings — Reading

When a rule string is read, and as which rules.  A list of texts is read as a list of clauses
(`Reads`), text by text.

* `value_rulesOf_eq_ok_iff`, `value_parse_eq_ok_iff`: a rule string within the limits is read
  exactly if each of its tokens is; its rules are those of the clauses that name no unknown suite.
* `value_parse_join_eq_ok_iff`: the same of texts that are joined to a rule string.
* `exists_resolve?_of_parse`: so each of its rules is that of a sound clause, and they are not too
  many.
* `exists_value_parse_eq_ok_of_perm`: whether a rule string is read does not depend on the order of
  its pieces.
-/

namespace CipherRules.RuleString

open Text (pieces)

/-! ### Lists of texts -/

/-- The texts are read as the clauses, one by one. -/
def Reads (texts : List Text) (clauses : List Clause) : Prop :=
  texts.map Clause.parse = clauses.map .ok

theorem reads_append_iff {texts others : List Text} {clauses : List Clause} :
    Reads (texts ++ others) clauses ↔
      ∃ first last, clauses = first ++ last ∧ Reads texts first ∧ Reads others last := by
  simp only [Reads, List.map_append]
  constructor
  · intro h
    obtain ⟨first, last, rfl, h₁, h₂⟩ := List.map_eq_append_iff.1 h.symm
    exact ⟨first, last, rfl, h₁.symm, h₂.symm⟩
  · rintro ⟨first, last, rfl, h₁, h₂⟩
    rw [h₁, h₂, List.map_append]

theorem reads_cons_iff {text : Text} {others : List Text} {clauses : List Clause} :
    Reads (text :: others) clauses ↔
      ∃ clause last, clauses = clause :: last ∧ Clause.parse text = .ok clause ∧
        Reads others last := by
  constructor
  · intro h
    cases clauses with
    | nil => simp [Reads] at h
    | cons clause last =>
      obtain ⟨hclause, hlast⟩ := List.cons.inj h
      exact ⟨clause, last, rfl, hclause, hlast⟩
  · rintro ⟨clause, last, rfl, hclause, hlast⟩
    exact List.cons_eq_cons.2 ⟨hclause, hlast⟩

theorem Reads.length_eq {texts : List Text} {clauses : List Clause} (h : Reads texts clauses) :
    texts.length = clauses.length := by
  have hlen := congrArg List.length h
  rwa [List.length_map, List.length_map] at hlen

theorem Reads.sound {texts : List Text} {clauses : List Clause} (h : Reads texts clauses) :
    ∀ clause ∈ clauses, clause.Sound := by
  intro clause hclause
  obtain ⟨text, -, htext⟩ := exists_of_map_eq_ok h hclause
  exact Clause.sound_of_parse htext

theorem Reads.unique {texts : List Text} {clauses others : List Clause} (h : Reads texts clauses)
    (h' : Reads texts others) : clauses = others :=
  (List.map_inj_right fun _ _ => Except.ok.inj).1 (h.symm.trans h')

theorem exists_reads_iff : ∀ {texts : List Text},
    (∃ clauses, Reads texts clauses) ↔ ∀ t ∈ texts, ∃ clause, Clause.parse t = .ok clause
  | [] => by simp [Reads]
  | t :: rest => by
      rw [List.forall_mem_cons, ← exists_reads_iff]
      constructor
      · rintro ⟨clauses, h⟩
        obtain ⟨clause, last, -, hclause, hlast⟩ := reads_cons_iff.1 h
        exact ⟨⟨clause, hclause⟩, last, hlast⟩
      · rintro ⟨⟨clause, hclause⟩, last, hlast⟩
        exact ⟨clause :: last, reads_cons_iff.2 ⟨clause, last, rfl, hclause, hlast⟩⟩

/-! ### Rule strings -/

theorem Token.map_text_ofPieces (offset : Nat) (texts : List Text) :
    (Token.ofPieces offset texts).map (·.text) = texts.map Text.trim := by
  induction texts generalizing offset with
  | nil => rfl
  | cons t rest ih => exact congrArg (Text.trim t :: ·) (ih _)

theorem map_text_tokens (input : Text) :
    (tokens input).map (·.text) = (pieces separator input).map Text.trim :=
  Token.map_text_ofPieces 0 _

theorem length_tokens (input : Text) : (tokens input).length = (pieces separator input).length := by
  have h := congrArg List.length (map_text_tokens input)
  simpa using h

/-- Tokens give rules exactly if each of them is read. -/
theorem value_rulesOf_eq_ok_iff {catalog : Catalog} {tokens : List Token} {rules : List Rule} :
    (rulesOf catalog tokens).value = .ok rules ↔
      ∃ clauses, Reads (tokens.map (·.text)) clauses ∧
        rules = clauses.filterMap (·.resolve? catalog) := by
  induction tokens generalizing rules with
  | nil => simp [rulesOf, Reads, eq_comm]
  | cons token rest ih =>
    rw [List.map_cons, rulesOf]
    constructor
    · intro h
      cases hclause : Clause.parse token.text with
      | error fault => simp [hclause] at h
      | ok clause =>
        -- a clause without a rule is read all the same, and leaves none
        cases hrule : clause.resolve? catalog with
        | none =>
          simp only [hclause, hrule] at h
          obtain ⟨last, hlast, rfl⟩ := ih.1 h
          exact ⟨clause :: last, reads_cons_iff.2 ⟨clause, last, rfl, hclause, hlast⟩,
            by simp [hrule]⟩
        | some rule =>
          simp only [hclause, hrule] at h
          cases hothers : (rulesOf catalog rest).value with
          | error e => simp [hothers, Except.map] at h
          | ok others =>
            rw [hothers] at h
            cases h
            obtain ⟨last, hlast, rfl⟩ := ih.1 hothers
            exact ⟨clause :: last, reads_cons_iff.2 ⟨clause, last, rfl, hclause, hlast⟩,
              by simp [hrule]⟩
    · rintro ⟨clauses, hreads, rfl⟩
      obtain ⟨clause, last, rfl, hclause, hlast⟩ := reads_cons_iff.1 hreads
      have hrest := ih.2 ⟨last, hlast, rfl⟩
      cases hrule : clause.resolve? catalog with
      | none => simp [hclause, hrule, hrest]
      | some rule => simp [hclause, hrule, hrest, Except.map]

/-- A rule string within the limits gives rules exactly if each of its tokens is read. -/
theorem value_parse_eq_ok_iff {catalog : Catalog} {input : Text} {rules : List Rule} :
    (parse catalog input).value = .ok rules ↔
      Text.byteLength input ≤ Limits.ruleStringBytes ∧
      (pieces separator input).length ≤ Limits.rules ∧
      ∃ clauses, Reads ((pieces separator input).map Text.trim) clauses ∧
        rules = clauses.filterMap (·.resolve? catalog) := by
  rw [parse_eq, length_tokens]
  split
  · rename_i hlong
    simp [Nat.not_le.2 hlong]
  · rename_i hlong
    split
    · rename_i hmany
      simp [Nat.not_le.2 hmany]
    · rename_i hmany
      rw [value_rulesOf_eq_ok_iff, map_text_tokens]
      simp [Nat.le_of_not_lt hlong, Nat.le_of_not_lt hmany]

/-- Texts without separator and without blanks at their ends are the tokens of their joint text. -/
theorem value_parse_join_eq_ok_iff {catalog : Catalog} {texts : List Text} {rules : List Rule}
    (hne : texts ≠ []) (hsep : ∀ t ∈ texts, separator ∉ t) (htrim : ∀ t ∈ texts, Text.trim t = t) :
    (parse catalog (Text.join [separator] texts)).value = .ok rules ↔
      Text.byteLength (Text.join [separator] texts) ≤ Limits.ruleStringBytes ∧
      texts.length ≤ Limits.rules ∧
      ∃ clauses, Reads texts clauses ∧ rules = clauses.filterMap (·.resolve? catalog) := by
  have hpieces : pieces separator (Text.join [separator] texts) = texts :=
    Text.pieces_join hne hsep
  have hmap : texts.map Text.trim = texts := (List.map_congr_left htrim).trans (List.map_id _)
  rw [value_parse_eq_ok_iff, hpieces, hmap]

/-- Whether a rule string is read does not depend on the order of its pieces. -/
theorem exists_value_parse_eq_ok_of_perm {catalog : Catalog} {input other : Text}
    (hp : (pieces separator input).Perm (pieces separator other))
    (h : ∃ rules, (parse catalog input).value = .ok rules) :
    ∃ rules, (parse catalog other).value = .ok rules := by
  obtain ⟨rules, hrules⟩ := h
  obtain ⟨hbytes, hcount, clauses, hreads, -⟩ := value_parse_eq_ok_iff.1 hrules
  have hlen : Text.byteLength other = Text.byteLength input := by
    rw [← Text.join_pieces separator other, ← Text.join_pieces separator input]
    exact Text.byteLength_join_perm hp.symm
  have hreadable := exists_reads_iff.1 ⟨clauses, hreads⟩
  obtain ⟨others, hothers⟩ := exists_reads_iff.2 fun t ht =>
    hreadable t ((hp.map Text.trim).mem_iff.2 ht)
  exact ⟨_, value_parse_eq_ok_iff.2 ⟨hlen ▸ hbytes, hp.length_eq ▸ hcount, others, hothers, rfl⟩⟩

/-- The rules of a rule string are not too many, and each is that of a clause that can be read. -/
theorem exists_resolve?_of_parse {catalog : Catalog} {input : Text} {rules : List Rule}
    (h : (parse catalog input).value = .ok rules) :
    rules.length ≤ Limits.rules ∧
      ∀ r ∈ rules, ∃ clause : Clause, clause.Sound ∧ clause.resolve? catalog = some r := by
  obtain ⟨-, hcount, clauses, hreads, rfl⟩ := value_parse_eq_ok_iff.1 h
  have hlen := hreads.length_eq
  rw [List.length_map] at hlen
  refine ⟨Nat.le_trans (List.length_filterMap_le _ clauses) (hlen ▸ hcount), fun r hr => ?_⟩
  obtain ⟨clause, hclause, hrule⟩ := List.mem_filterMap.1 hr
  exact ⟨clause, hreads.sound clause hclause, hrule⟩

end CipherRules.RuleString
