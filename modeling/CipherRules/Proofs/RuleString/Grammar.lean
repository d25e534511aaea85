import CipherRules.Catalog.Builtin
import CipherRules.Proofs.RuleString.Reading
import Mathlib.Data.List.Forall2

/-!
# Rule strings — Grammar

What a rule string is and what it means, said without the reader:

    rule string  ::=  token (':' token)*         with ASCII blanks around each token
    token        ::=  '@STRENGTH'  |  [sign] term ('+' term)*
    sign         ::=  '+' | '-' | '!' | '&'
    term         ::=  keyword | suite name

`IsToken` is the grammar of a token; no catalog takes part in it.  `Gives catalog` relates a token to
its rule in a catalog, or to none if it names a suite that the catalog does not have.

* `isToken_iff`, `gives_iff`: the reader reads exactly the tokens of the grammar, each as its rule.
* `value_parse_eq_ok_iff_grammar`: so a rule string within the limits is read exactly if it is one by
  the grammar, and its rules are those that its tokens give, in their order.
-/

namespace CipherRules.RuleString

open Text (Pads Splits pieces)

/-! ### The grammar -/

/-- A word shaped like the name of a suite: it has a hyphen, or one of two marks at its start. -/
def SuiteShaped (word : Text) : Prop :=
  '-' ∈ word ∨ Text.of "TLS_" <+: word ∨ Text.of "SSL_" <+: word

/-- A word that can be a term. -/
def IsTerm (word : Text) : Prop := word ≠ [] ∧ (word ∈ Keyword.all ∨ SuiteShaped word)

/-- What stands behind the sign of a token: terms joined by `+`, and no further sign in front. -/
structure Phrase (body : Text) (words : List Text) : Prop where
  splits : Splits '+' body words
  length_le : words.length ≤ Limits.termsPerToken
  isTerm : ∀ word ∈ words, IsTerm word
  no_mark : ∀ c ∈ body.head?, c ∉ marks

/-- A token of the grammar. -/
inductive IsToken : Text → Prop where
  | strength : IsToken (.of "@STRENGTH")
  | terms {op : Operation} {body : Text} {words : List Text} (hop : op ≠ .sortByStrength)
      (h : Phrase body words) : IsToken (op.sign ++ body)

/-- The class that a term stands for in a catalog. -/
inductive Stands (catalog : Catalog) : Text → Predicate → Prop where
  | keyword {word : Text} {p : Predicate} (h : (word, p) ∈ Keyword.table) : Stands catalog word p
  | suite {word : Text} {s : Suite} (hword : SuiteShaped word)
      (h : catalog.lookup? word = some s) : Stands catalog word (.name [s.name])

/-- The rule that a token gives in a catalog: the classes of its terms are conjoined from the left.
A token with a term for a suite that is not in the catalog gives none. -/
inductive Gives (catalog : Catalog) : Text → Option Rule → Prop where
  | strength : Gives catalog (.of "@STRENGTH") (some ⟨.sortByStrength, .always⟩)
  | unknown {op : Operation} {body word : Text} {words : List Text} (hop : op ≠ .sortByStrength)
      (h : Phrase body words) (hword : word ∈ words) (hshape : SuiteShaped word)
      (hnone : catalog.lookup? word = none) : Gives catalog (op.sign ++ body) none
  | rule {op : Operation} {body : Text} {words : List Text} {p : Predicate} {ps : List Predicate}
      (hop : op ≠ .sortByStrength) (h : Phrase body words)
      (hstands : List.Forall₂ (Stands catalog) words (p :: ps)) :
      Gives catalog (op.sign ++ body) (some ⟨op, ps.foldl .and p⟩)

/-- The tokens of a rule string stand between its separators, with blanks around them. -/
def HasTokens (input : Text) (tokens : List Text) : Prop :=
  ∃ segments, Splits ':' input segments ∧ List.Forall₂ Pads segments tokens

variable {catalog : Catalog}

/-! ### Terms -/

theorem suiteShaped_iff {word : Text} : SuiteShaped word ↔ looksLikeSuiteName word = true := by
  simp [SuiteShaped, looksLikeSuiteName, or_assoc]

instance (word : Text) : Decidable (SuiteShaped word) :=
  decidable_of_iff _ suiteShaped_iff.symm

instance (word : Text) : Decidable (IsTerm word) :=
  inferInstanceAs (Decidable (_ ∧ _))

theorem phrase_iff {body : Text} {words : List Text} :
    Phrase body words ↔ words = pieces '+' body ∧ words.length ≤ Limits.termsPerToken ∧
      (∀ word ∈ words, IsTerm word) ∧ body.head?.all (fun c => c ∉ marks) = true := by
  rw [← Text.splits_iff, Option.all_eq_true]
  simp only [decide_eq_true_eq]
  exact ⟨fun h => ⟨h.splits, h.length_le, h.isTerm, h.no_mark⟩,
    fun ⟨hsplits, hlen, hterms, hmark⟩ => ⟨hsplits, hlen, hterms, hmark⟩⟩

instance (body : Text) (words : List Text) : Decidable (Phrase body words) :=
  decidable_of_iff _ phrase_iff.symm

theorem mem_all_iff {word : Text} : word ∈ Keyword.all ↔ ∃ p, (word, p) ∈ Keyword.table := by
  simp [Keyword.all]

/-- A word is read as the keyword that it is, or as the name that it is shaped like. -/
theorem Term.parse_eq_ok_iff {word : Text} {term : Term} :
    Term.parse word = .ok term ↔
      (∃ p, (word, p) ∈ Keyword.table ∧ term = .keyword p) ∨
        SuiteShaped word ∧ term = .suite word := by
  rw [suiteShaped_iff]
  constructor
  · intro h
    unfold Term.parse at h
    split at h
    · cases h
    · split at h
      · rename_i p hp
        cases h
        exact Or.inl ⟨p, Keyword.mem_of_meaning? hp, rfl⟩
      · split at h
        · rename_i hshape
          cases h
          exact Or.inr ⟨hshape, rfl⟩
        · cases h
  · rintro (⟨p, hp, rfl⟩ | ⟨hshape, rfl⟩)
    · exact Term.parse_keyword hp
    · exact Term.parse_suite hshape

theorem isTerm_iff {word : Text} : IsTerm word ↔ ∃ term, Term.parse word = .ok term := by
  constructor
  · rintro ⟨-, hword | hshape⟩
    · obtain ⟨p, hp⟩ := mem_all_iff.1 hword
      exact ⟨_, Term.parse_keyword hp⟩
    · exact ⟨_, Term.parse_suite (suiteShaped_iff.1 hshape)⟩
  · rintro ⟨term, h⟩
    refine ⟨?_, ?_⟩
    · rintro rfl
      cases h
    · rcases Term.parse_eq_ok_iff.1 h with ⟨p, hp, -⟩ | ⟨hshape, -⟩
      · exact Or.inl (mem_all_iff.2 ⟨p, hp⟩)
      · exact Or.inr hshape

/-- A term that is read stands for what the catalog resolves it to. -/
theorem stands_iff {word : Text} {term : Term} (h : Term.parse word = .ok term) {p : Predicate} :
    Stands catalog word p ↔ term.resolve? catalog = some p := by
  constructor
  · rintro (hp | ⟨hshape, hs⟩)
    · rw [Term.parse_keyword hp] at h
      cases h
      rfl
    · rw [Term.parse_suite (suiteShaped_iff.1 hshape)] at h
      cases h
      rw [Term.resolve?, hs]
      rfl
  · intro hp
    rcases Term.parse_eq_ok_iff.1 h with ⟨q, hq, rfl⟩ | ⟨hshape, rfl⟩
    · cases hp
      exact .keyword hq
    · obtain ⟨s, hs, rfl⟩ := Option.map_eq_some_iff.1 hp
      exact .suite hshape hs

/-- A term that is read resolves to nothing only as the name of an unknown suite. -/
theorem resolve?_eq_none_iff {word : Text} {term : Term} (h : Term.parse word = .ok term) :
    term.resolve? catalog = none ↔ SuiteShaped word ∧ catalog.lookup? word = none := by
  rcases Term.parse_eq_ok_iff.1 h with ⟨q, hq, rfl⟩ | ⟨hshape, rfl⟩
  · have hplain : ¬ SuiteShaped word := fun hshape => by
      have hnone := Keyword.meaning?_eq_none_of_looksLike (suiteShaped_iff.1 hshape)
      rw [Keyword.meaning?_of_mem _ hq] at hnone
      cases hnone
    simp [Term.resolve?, hplain]
  · simp [Term.resolve?, hshape]

/-! ### Conjunctions -/

/-- Terms are conjoined from the left, each with what it resolves to. -/
theorem Term.conjoin?_eq_some_iff {terms : List Term} {p q : Predicate} :
    Term.conjoin? catalog p terms = some q ↔
      ∃ ps, List.Forall₂ (fun t r => t.resolve? catalog = some r) terms ps ∧
        q = ps.foldl .and p := by
  induction terms generalizing p with
  | nil => simp [Term.conjoin?, eq_comm]
  | cons t rest ih =>
    rw [Term.conjoin?]
    cases ht : t.resolve? catalog with
    | none => simp [List.forall₂_cons_left_iff, ht]
    | some r =>
      simp only [ih, List.forall₂_cons_left_iff, ht, Option.some.injEq]
      constructor
      · rintro ⟨ps, hps, rfl⟩
        exact ⟨r :: ps, ⟨r, ps, rfl, hps, rfl⟩, rfl⟩
      · rintro ⟨_, ⟨_, ps, rfl, hps, rfl⟩, rfl⟩
        exact ⟨ps, hps, rfl⟩

theorem Term.conjoin?_eq_none_iff {terms : List Term} {p : Predicate} :
    Term.conjoin? catalog p terms = none ↔ ∃ t ∈ terms, t.resolve? catalog = none := by
  induction terms generalizing p with
  | nil => simp [Term.conjoin?]
  | cons t rest ih =>
    rw [Term.conjoin?]
    cases ht : t.resolve? catalog with
    | none => simp [ht]
    | some r => simp [ih, ht]

/-- A clause gives the conjunction of what its terms resolve to. -/
theorem Clause.resolve?_eq_some_iff {op : Operation} {first : Term} {others : List Term}
    {r : Rule} :
    (Clause.apply op first others).resolve? catalog = some r ↔
      ∃ p ps, List.Forall₂ (fun t q => t.resolve? catalog = some q) (first :: others) (p :: ps) ∧
        r = ⟨op, ps.foldl .and p⟩ := by
  rw [Clause.resolve?]
  cases hfirst : first.resolve? catalog with
  | none => simp [hfirst]
  | some p =>
    simp only [Option.map_eq_some_iff, Term.conjoin?_eq_some_iff, List.forall₂_cons, hfirst,
      Option.some.injEq]
    constructor
    · rintro ⟨q, ⟨ps, hps, rfl⟩, rfl⟩
      exact ⟨p, ps, ⟨rfl, hps⟩, rfl⟩
    · rintro ⟨p, ps, ⟨rfl, hps⟩, rfl⟩
      exact ⟨_, ⟨ps, hps, rfl⟩, rfl⟩

/-- A clause gives no rule exactly if some term resolves to nothing. -/
theorem Clause.resolve?_eq_none_iff {op : Operation} {first : Term} {others : List Term} :
    (Clause.apply op first others).resolve? catalog = none ↔
      ∃ t ∈ first :: others, t.resolve? catalog = none := by
  rw [Clause.resolve?]
  cases hfirst : first.resolve? catalog with
  | none => simp [hfirst]
  | some p => simp [hfirst, Term.conjoin?_eq_none_iff]

/-! ### Tokens -/

/-- The words are read as the terms, one by one. -/
abbrev ReadsTerms (words : List Text) (terms : List Term) : Prop :=
  List.Forall₂ (fun word term => Term.parse word = .ok term) words terms

theorem readsTerms_iff {words : List Text} {terms : List Term} :
    ReadsTerms words terms ↔ words.map Term.parse = terms.map .ok := by
  rw [← List.forall₂_eq_eq_eq, List.forall₂_map_left_iff, List.forall₂_map_right_iff]

theorem exists_readsTerms_iff : ∀ {words : List Text},
    (∃ terms, ReadsTerms words terms) ↔ ∀ word ∈ words, IsTerm word
  | [] => by simp
  | word :: rest => by
      rw [List.forall_mem_cons, ← exists_readsTerms_iff, isTerm_iff]
      simp only [List.forall₂_cons_left_iff]
      constructor
      · rintro ⟨_, term, terms, hword, hrest, rfl⟩
        exact ⟨⟨term, hword⟩, terms, hrest⟩
      · rintro ⟨⟨term, hword⟩, terms, hrest⟩
        exact ⟨_, term, terms, hword, hrest, rfl⟩

theorem forall₂_stands_iff {words : List Text} {terms : List Term} (h : ReadsTerms words terms)
    {ps : List Predicate} :
    List.Forall₂ (Stands catalog) words ps ↔
      List.Forall₂ (fun t p => t.resolve? catalog = some p) terms ps := by
  induction h generalizing ps with
  | nil => rw [List.forall₂_nil_left_iff, List.forall₂_nil_left_iff]
  | cons hword _ ih =>
    simp only [List.forall₂_cons_left_iff, stands_iff hword, ih]

theorem exists_unknown_iff {words : List Text} {terms : List Term} (h : ReadsTerms words terms) :
    (∃ word ∈ words, SuiteShaped word ∧ catalog.lookup? word = none) ↔
      ∃ t ∈ terms, t.resolve? catalog = none := by
  induction h with
  | nil => simp
  | cons hword _ ih => simp [resolve?_eq_none_iff hword, ih]

/-- What stands behind a sign is read exactly if it is a phrase, and as the terms of its words. -/
theorem parseBody_eq_ok_iff_phrase {op : Operation} {body : Text} {clause : Clause} :
    Clause.parseBody op body = .ok clause ↔
      ∃ words first others, Phrase body words ∧ ReadsTerms words (first :: others) ∧
        clause = .apply op first others := by
  rw [parseBody_eq_ok_iff]
  constructor
  · rintro ⟨-, hmark, hlen, first, others, hterms, rfl⟩
    have hreads : ReadsTerms (pieces '+' body) (first :: others) := readsTerms_iff.2 hterms
    refine ⟨pieces '+' body, first, others, ⟨Text.splits_iff.2 rfl, hlen,
      exists_readsTerms_iff.1 ⟨_, hreads⟩, fun c hc => ?_⟩, hreads, rfl⟩
    exact isLeadingMark_eq_false_iff.1 (hmark c hc)
  · rintro ⟨words, first, others, hphrase, hreads, rfl⟩
    obtain rfl := Text.splits_iff.1 hphrase.splits
    refine ⟨?_, fun c hc => isLeadingMark_eq_false_iff.2 (hphrase.no_mark c hc),
      hphrase.length_le, first, others, readsTerms_iff.1 hreads, rfl⟩
    -- an empty body would be an empty term
    rintro rfl
    exact (hphrase.isTerm [] (by simp)).1 rfl

/-- A sign and a phrase are read as a clause, term by term. -/
theorem Phrase.exists_parse {op : Operation} (hop : op ≠ .sortByStrength) {body : Text}
    {words : List Text} (h : Phrase body words) :
    ∃ first others, ReadsTerms words (first :: others) ∧
      Clause.parse (op.sign ++ body) = .ok (.apply op first others) := by
  obtain ⟨terms, hreads⟩ := exists_readsTerms_iff.2 h.isTerm
  cases hreads with
  | nil => exact absurd rfl h.splits.ne_nil
  | cons hfirst hothers =>
    refine ⟨_, _, .cons hfirst hothers, ?_⟩
    exact Clause.parse_eq_ok_iff.2 (Or.inr ⟨op, body, hop, rfl,
      parseBody_eq_ok_iff_phrase.2 ⟨_, _, _, h, .cons hfirst hothers, rfl⟩⟩)

theorem parse_strength : Clause.parse (.of "@STRENGTH") = .ok .sortByStrength :=
  Clause.parse_eq_ok_iff.2 (Or.inl ⟨rfl, rfl⟩)

/-- **The tokens of the grammar are those that are read.** -/
theorem isToken_iff {token : Text} : IsToken token ↔ ∃ clause, Clause.parse token = .ok clause := by
  constructor
  · rintro (_ | ⟨hop, h⟩)
    · exact ⟨_, parse_strength⟩
    · obtain ⟨first, others, -, hclause⟩ := h.exists_parse hop
      exact ⟨_, hclause⟩
  · rintro ⟨clause, h⟩
    rcases Clause.parse_eq_ok_iff.1 h with ⟨rfl, -⟩ | ⟨op, body, hop, rfl, hbody⟩
    · exact .strength
    · obtain ⟨words, first, others, hphrase, -, -⟩ := parseBody_eq_ok_iff_phrase.1 hbody
      exact .terms hop hphrase

/-- **A token gives the rule of the clause that it is read as.** -/
theorem gives_iff {token : Text} {outcome : Option Rule} :
    Gives catalog token outcome ↔
      ∃ clause, Clause.parse token = .ok clause ∧ clause.resolve? catalog = outcome := by
  constructor
  · intro h
    cases h with
    | strength => exact ⟨.sortByStrength, parse_strength, rfl⟩
    | unknown hop h hword hshape hnone =>
      obtain ⟨first, others, hreads, hclause⟩ := h.exists_parse hop
      have hunknown := (exists_unknown_iff hreads).1 ⟨_, hword, hshape, hnone⟩
      exact ⟨_, hclause, Clause.resolve?_eq_none_iff.2 hunknown⟩
    | rule hop h hstands =>
      obtain ⟨first, others, hreads, hclause⟩ := h.exists_parse hop
      have hresolved := (forall₂_stands_iff hreads).1 hstands
      exact ⟨_, hclause, Clause.resolve?_eq_some_iff.2 ⟨_, _, hresolved, rfl⟩⟩
  · rintro ⟨clause, h, rfl⟩
    rcases Clause.parse_eq_ok_iff.1 h with ⟨rfl, rfl⟩ | ⟨op, body, hop, rfl, hbody⟩
    · exact .strength
    · obtain ⟨words, first, others, hphrase, hreads, rfl⟩ := parseBody_eq_ok_iff_phrase.1 hbody
      cases hrule : (Clause.apply op first others).resolve? catalog with
      | none =>
        obtain ⟨word, hword, hshape, hnone⟩ :=
          (exists_unknown_iff hreads).2 (Clause.resolve?_eq_none_iff.1 hrule)
        exact .unknown hop hphrase hword hshape hnone
      | some r =>
        obtain ⟨p, ps, hresolved, rfl⟩ := Clause.resolve?_eq_some_iff.1 hrule
        exact .rule hop hphrase ((forall₂_stands_iff hreads).2 hresolved)

/-! ### Rule strings -/

theorem hasTokens_iff {input : Text} {tokens : List Text} :
    HasTokens input tokens ↔ tokens = (pieces separator input).map Text.trim := by
  have hpads : ∀ segments : List Text, List.Forall₂ Pads segments tokens ↔
      tokens = segments.map Text.trim := by
    intro segments
    rw [eq_comm, ← List.forall₂_eq_eq_eq, List.forall₂_map_left_iff]
    exact ⟨fun h => h.imp fun _ _ hp => (Text.pads_iff.1 hp).symm,
      fun h => h.imp fun _ _ ht => Text.pads_iff.2 ht.symm⟩
  simp only [HasTokens, Text.splits_iff, hpads, exists_eq_left]
  rfl

/-- Tokens give the rules of the clauses that they are read as. -/
theorem forall₂_gives_iff {texts : List Text} {outcomes : List (Option Rule)} :
    List.Forall₂ (Gives catalog) texts outcomes ↔
      ∃ clauses, Reads texts clauses ∧ outcomes = clauses.map (·.resolve? catalog) := by
  induction texts generalizing outcomes with
  | nil => simp [Reads]
  | cons text rest ih =>
    simp only [List.forall₂_cons_left_iff, ih, gives_iff, reads_cons_iff]
    constructor
    · rintro ⟨_, _, ⟨clause, hclause, rfl⟩, ⟨clauses, hreads, rfl⟩, rfl⟩
      exact ⟨clause :: clauses, ⟨clause, clauses, rfl, hclause, hreads⟩, rfl⟩
    · rintro ⟨_, ⟨clause, clauses, rfl, hclause, hreads⟩, rfl⟩
      exact ⟨_, _, ⟨clause, hclause, rfl⟩, ⟨clauses, hreads, rfl⟩, rfl⟩

/-- **The reader accepts exactly the grammar, and builds exactly its meaning.**  A rule string is
read exactly if it is not too long, does not have too many separators, and each text between them is
a token of the grammar with blanks around it.  Its rules are then those that the tokens give, in
their order, where a token with the name of an unknown suite gives none. -/
theorem value_parse_eq_ok_iff_grammar (catalog : Catalog) (input : Text) :
    ((∃ rules, (parse catalog input).value = .ok rules) ↔
      Text.byteLength input ≤ Limits.ruleStringBytes ∧ input.count ':' < Limits.rules ∧
        ∃ tokens, HasTokens input tokens ∧ ∀ token ∈ tokens, IsToken token) ∧
    ∀ rules, (parse catalog input).value = .ok rules ↔
      Text.byteLength input ≤ Limits.ruleStringBytes ∧ input.count ':' < Limits.rules ∧
        ∃ tokens outcomes, HasTokens input tokens ∧ List.Forall₂ (Gives catalog) tokens outcomes ∧
          rules = outcomes.reduceOption := by
  have hcount : (pieces separator input).length ≤ Limits.rules ↔
      input.count ':' < Limits.rules := by
    rw [Text.length_pieces]
    rfl
  have hreduce : ∀ clauses : List Clause, clauses.filterMap (·.resolve? catalog) =
      (clauses.map (·.resolve? catalog)).reduceOption := by
    intro clauses
    show _ = (clauses.map (·.resolve? catalog)).filterMap id
    rw [List.filterMap_map, Function.id_comp]
  refine ⟨?_, fun rules => ?_⟩
  · simp only [value_parse_eq_ok_iff, hcount, hasTokens_iff, exists_eq_left, isToken_iff]
    constructor
    · rintro ⟨_, hbytes, hrules, clauses, hreads, -⟩
      exact ⟨hbytes, hrules, exists_reads_iff.1 ⟨clauses, hreads⟩⟩
    · rintro ⟨hbytes, hrules, htokens⟩
      obtain ⟨clauses, hreads⟩ := exists_reads_iff.2 htokens
      exact ⟨_, hbytes, hrules, clauses, hreads, rfl⟩
  · simp only [value_parse_eq_ok_iff, hcount, hasTokens_iff, forall₂_gives_iff]
    constructor
    · rintro ⟨hbytes, hrules, clauses, hreads, rfl⟩
      exact ⟨hbytes, hrules, _, _, rfl, ⟨clauses, hreads, rfl⟩, hreduce clauses⟩
    · rintro ⟨hbytes, hrules, _, _, rfl, ⟨clauses, hreads, rfl⟩, rfl⟩
      exact ⟨hbytes, hrules, clauses, hreads, (hreduce clauses).symm⟩

/-- Blanks around tokens, an alias, a suite that the catalog does not have, and the sorting. -/
theorem value_parse_by_grammar :
    (parse Catalog.builtin (.of " kEDH+aNULL\t:!EXP: -NO-SUCH :@STRENGTH")).value =
      .ok [⟨.add, .and (.keyExchange [.dhe]) (.authentication [.null])⟩,
        ⟨.delete, .exportGrade true⟩, ⟨.sortByStrength, .always⟩] := by
  have hanonymous : Gives Catalog.builtin (Operation.add.sign ++ .of "kEDH+aNULL")
      (some ⟨.add, .and (.keyExchange [.dhe]) (.authentication [.null])⟩) := by
    have hphrase : Phrase (.of "kEDH+aNULL") [.of "kEDH", .of "aNULL"] :=
      ⟨Text.splits_iff.2 rfl, by decide, by decide +kernel, by rintro _ ⟨⟩; decide⟩
    exact .rule (by decide) hphrase
      (.cons (.keyword (by decide +kernel)) (.cons (.keyword (by decide +kernel)) .nil))
  have hexport : Gives Catalog.builtin (Operation.delete.sign ++ .of "EXP")
      (some ⟨.delete, .exportGrade true⟩) := by
    have hphrase : Phrase (.of "EXP") [.of "EXP"] :=
      ⟨Text.splits_iff.2 rfl, by decide, by decide +kernel, by rintro _ ⟨⟩; decide⟩
    exact .rule (by decide) hphrase (.cons (.keyword (by decide +kernel)) .nil)
  have hunknown : Gives Catalog.builtin (Operation.remove.sign ++ .of "NO-SUCH") none := by
    have hphrase : Phrase (.of "NO-SUCH") [.of "NO-SUCH"] :=
      ⟨Text.splits_iff.2 rfl, by decide, by decide +kernel, by rintro _ ⟨⟩; decide⟩
    exact .unknown (by decide) hphrase (.head _) (by decide) (by decide +kernel)
  exact ((value_parse_eq_ok_iff_grammar _ _).2 _).2 ⟨by decide, by decide, _, _,
    hasTokens_iff.2 rfl, .cons hanonymous (.cons hexport (.cons hunknown (.cons .strength .nil))),
    rfl⟩

end CipherRules.RuleString
