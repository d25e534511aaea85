import CipherRules.Proofs.Catalog.Part
import CipherRules.Proofs.RuleString.Directive
import CipherRules.Proofs.RuleString.Grammar

/-!
# Rule strings — Validity

Whether a rule string can be read does not depend on the catalog.  What is wrong with it is found
without one (`fault?`), and this is the error that the reader gives with any catalog
(`value_parse_eq_error_iff`).

The rules do depend on the catalog, but only through the suites that are named.  Two catalogs agree
on a token (`AgreeOn`) if each suite that it names is known in both under one standard name, and
then the token gives the same rule in both (`AgreeOn.exists_resolve?`).  A rule in which no suite is
named is that of its token in every catalog (`Clause.resolve?_of_names_eq_nil`).
-/

namespace CipherRules.RuleString

open Text (pieces byteLength)

variable {catalog c d : Catalog} {input : Text}

/-! ### Faults -/

/-- What is wrong with a token. -/
def Token.fault? (token : Token) : Option SelectionError :=
  match Clause.parse token.text with
  | .error fault => some (.badToken token.text token.position fault)
  | .ok _ => none

/-- What is wrong with a rule string: it is too long, it has too many tokens, or there is a first
token with a fault. -/
def fault? (input : Text) : Option SelectionError :=
  if Limits.ruleStringBytes < byteLength input then some (.ruleStringTooLong (byteLength input))
  else if Limits.rules < (tokens input).length then some (.tooManyRules (tokens input).length)
  else (tokens input).findSome? Token.fault?

/-- Tokens are refused for the first that has a fault, whatever the catalog resolves before it. -/
theorem value_rulesOf_eq_error_iff {tokens : List Token} {e : SelectionError} :
    (rulesOf catalog tokens).value = .error e ↔ tokens.findSome? Token.fault? = some e := by
  induction tokens with
  | nil => simp [rulesOf]
  | cons token rest ih =>
    rw [rulesOf, List.findSome?_cons, Token.fault?]
    cases Clause.parse token.text with
    | error fault => simp
    | ok clause =>
      simp only [← ih]
      cases clause.resolve? catalog with
      | none => rfl
      | some r => cases (rulesOf catalog rest).value <;> simp [Except.map]

/-- **The error of a rule string is found without the catalog.** -/
theorem value_parse_eq_error_iff {e : SelectionError} :
    (parse catalog input).value = .error e ↔ fault? input = some e := by
  rw [parse_eq, fault?]
  split
  · simp
  · split
    · simp
    · exact value_rulesOf_eq_error_iff

/-- There is one more token than separators. -/
theorem length_tokens_eq_count (input : Text) : (tokens input).length = input.count ':' + 1 := by
  rw [length_tokens, Text.length_pieces]
  rfl

theorem value_parse_of_tooLong (h : Limits.ruleStringBytes < byteLength input) :
    (parse catalog input).value = .error (.ruleStringTooLong (byteLength input)) := by
  rw [parse, if_pos h]

theorem value_parse_of_tooMany (hbytes : byteLength input ≤ Limits.ruleStringBytes)
    (h : Limits.rules < input.count ':' + 1) :
    (parse catalog input).value = .error (.tooManyRules (input.count ':' + 1)) := by
  rw [parse, if_neg (Nat.not_lt.2 hbytes), length_tokens_eq_count, if_pos h]

theorem Token.fault?_eq_some_iff {token : Token} {e : SelectionError} :
    token.fault? = some e ↔ ∃ fault, Clause.parse token.text = .error fault ∧
      e = .badToken token.text token.position fault := by
  rw [Token.fault?]
  cases Clause.parse token.text <;> simp [eq_comm]

/-- Within the limits the error is that of a token. -/
theorem exists_token_of_fault? {e : SelectionError}
    (hbytes : byteLength input ≤ Limits.ruleStringBytes)
    (hcount : input.count ':' + 1 ≤ Limits.rules) (h : fault? input = some e) :
    ∃ token ∈ tokens input, token.fault? = some e := by
  rw [← length_tokens_eq_count] at hcount
  rw [fault?, if_neg (Nat.not_lt.2 hbytes), if_neg (Nat.not_lt.2 hcount)] at h
  exact List.exists_of_findSome?_eq_some h

/-- No depth is measured in reading. -/
theorem fault?_ne_predicateTooDeep : fault? input ≠ some .predicateTooDeep := by
  intro h
  rw [fault?] at h
  split at h
  · cases h
  · split at h
    · cases h
    · obtain ⟨token, -, htoken⟩ := List.exists_of_findSome?_eq_some h
      obtain ⟨fault, -, he⟩ := Token.fault?_eq_some_iff.1 htoken
      cases he

/-! ### Tokens on which catalogs agree -/

/-- Each suite that the token names is known to both catalogs, under the same standard name. -/
def AgreeOn (c d : Catalog) (token : Text) : Prop :=
  ∀ (op : Operation) (body : Text) (words : List Text), op ≠ .sortByStrength →
    token = op.sign ++ body → Phrase body words → ∀ word ∈ words, SuiteShaped word →
      ∃ s t, c.lookup? word = some s ∧ d.lookup? word = some t ∧ s.name = t.name

/-- Terms that resolve alike are conjoined alike. -/
theorem Term.conjoin?_congr {terms : List Term} {p : Predicate}
    (h : ∀ t ∈ terms, t.resolve? c = t.resolve? d) :
    Term.conjoin? c p terms = Term.conjoin? d p terms := by
  induction terms generalizing p with
  | nil => rfl
  | cons t rest ih =>
    have hrest := fun u hu => h u (List.mem_cons_of_mem t hu)
    rw [Term.conjoin?, Term.conjoin?, h t List.mem_cons_self]
    cases t.resolve? d with
    | none => rfl
    | some q => exact ih hrest

theorem Clause.resolve?_congr {op : Operation} {first : Term} {others : List Term}
    (h : ∀ t ∈ first :: others, t.resolve? c = t.resolve? d) :
    (Clause.apply op first others).resolve? c = (Clause.apply op first others).resolve? d := by
  have hothers := fun t ht => h t (List.mem_cons_of_mem first ht)
  rw [Clause.resolve?, Clause.resolve?, h first List.mem_cons_self]
  cases first.resolve? d with
  | none => rfl
  | some p => exact congrArg (Option.map _) (Term.conjoin?_congr hothers)

/-- A word for a keyword, or for a suite of one standard name, resolves alike in both catalogs. -/
theorem Term.exists_resolve?_of_agree {word : Text} {term : Term}
    (h : Term.parse word = .ok term) (hagree : SuiteShaped word →
      ∃ s t, c.lookup? word = some s ∧ d.lookup? word = some t ∧ s.name = t.name) :
    ∃ p, term.resolve? c = some p ∧ term.resolve? d = some p := by
  rcases Term.parse_eq_ok_iff.1 h with ⟨p, -, rfl⟩ | ⟨hshape, rfl⟩
  · exact ⟨p, rfl, rfl⟩
  · obtain ⟨s, t, hs, ht, hname⟩ := hagree hshape
    refine ⟨.name [s.name], ?_, ?_⟩
    · rw [Term.resolve?, hs]
      rfl
    · rw [Term.resolve?, ht, hname]
      rfl

/-- **A token on which two catalogs agree gives the same rule in both.** -/
theorem AgreeOn.exists_resolve? {token : Text} {clause : Clause} (h : AgreeOn c d token)
    (hclause : Clause.parse token = .ok clause) :
    ∃ r, clause.resolve? c = some r ∧ clause.resolve? d = some r := by
  rcases Clause.parse_eq_ok_iff.1 hclause with ⟨-, rfl⟩ | ⟨op, body, hop, htoken, hbody⟩
  · exact ⟨_, rfl, rfl⟩
  · obtain ⟨words, first, others, hphrase, hreads, rfl⟩ := parseBody_eq_ok_iff_phrase.1 hbody
    have hterms : ∀ t ∈ first :: others,
        ∃ p, t.resolve? c = some p ∧ t.resolve? d = some p := by
      intro t ht
      obtain ⟨word, hword, hread⟩ := exists_of_map_eq_ok (readsTerms_iff.1 hreads) ht
      exact Term.exists_resolve?_of_agree hread (h op body words hop htoken hphrase word hword)
    have heq : (Clause.apply op first others).resolve? c =
        (Clause.apply op first others).resolve? d := by
      refine Clause.resolve?_congr fun t ht => ?_
      obtain ⟨p, hc, hd⟩ := hterms t ht
      rw [hc, hd]
    cases hrule : (Clause.apply op first others).resolve? c with
    | none =>
      obtain ⟨t, ht, hnone⟩ := Clause.resolve?_eq_none_iff.1 hrule
      obtain ⟨p, hc, -⟩ := hterms t ht
      rw [hnone] at hc
      cases hc
    | some r => exact ⟨r, rfl, heq ▸ hrule⟩

/-! ### Rules without names -/

theorem names_foldl_and (p : Predicate) (ps : List Predicate) :
    (ps.foldl .and p).names = (p :: ps).flatMap (·.names) := by
  induction ps generalizing p with
  | nil => simp
  | cons q rest ih => simp [ih, Predicate.names]

/-- A term whose class names no suite is a keyword, which has one class in every catalog. -/
theorem Term.resolve?_of_names_eq_nil {t : Term} {p : Predicate} (h : t.resolve? c = some p)
    (hnames : p.names = []) : t.resolve? d = some p := by
  cases t with
  | keyword q => exact h
  | suite n =>
    obtain ⟨s, -, rfl⟩ := Option.map_eq_some_iff.1 h
    cases hnames

/-- **A rule in which no suite is named is that of its clause in every catalog.** -/
theorem Clause.resolve?_of_names_eq_nil {clause : Clause} {r : Rule}
    (h : clause.resolve? c = some r) (hnames : r.predicate.names = []) :
    clause.resolve? d = some r := by
  cases clause with
  | sortByStrength => exact h
  | apply op first others =>
    obtain ⟨p, ps, hterms, rfl⟩ := Clause.resolve?_eq_some_iff.1 h
    rw [names_foldl_and, List.flatMap_eq_nil_iff] at hnames
    have hplain := (List.forall₂_and_left _ _).2 ⟨hnames, hterms.flip⟩
    refine Clause.resolve?_eq_some_iff.2 ⟨p, ps, hplain.flip.imp fun t q hq => ?_, rfl⟩
    exact Term.resolve?_of_names_eq_nil hq.2 hq.1

/-- Readings in two catalogs have the same rules without names. -/
theorem filter_names_filterMap_resolve? (clauses : List Clause) :
    (clauses.filterMap (·.resolve? c)).filter (·.predicate.names.isEmpty) =
      (clauses.filterMap (·.resolve? d)).filter (·.predicate.names.isEmpty) := by
  rw [List.filter_filterMap, List.filter_filterMap]
  refine List.filterMap_congr fun clause _ => Option.ext fun r => ?_
  rw [Option.filter_eq_some_iff, Option.filter_eq_some_iff]
  refine and_congr_left fun hnames => ⟨fun h => ?_, fun h => ?_⟩
  · exact Clause.resolve?_of_names_eq_nil h (List.isEmpty_iff.1 hnames)
  · exact Clause.resolve?_of_names_eq_nil h (List.isEmpty_iff.1 hnames)

/-! ### Two catalogs -/

/-- **Whether a rule string is valid does not depend on the catalog.**  Of two catalogs one refuses
it exactly if the other one does, and with the same error.  If they read it, each token on which the
catalogs agree gives the same rule in both readings, at its place among the tokens; and the rules in
which no suite is named, those of the sorting directive and of keywords alone, are the same. -/
theorem validity_independent_of_catalog (c d : Catalog) (input : Text) :
    (∀ e, (parse c input).value = .error e ↔ (parse d input).value = .error e) ∧
    ∀ rules others, (parse c input).value = .ok rules → (parse d input).value = .ok others →
      (∃ tokens outcomes outcomes', HasTokens input tokens ∧
        List.Forall₂ (Gives c) tokens outcomes ∧ rules = outcomes.reduceOption ∧
        List.Forall₂ (Gives d) tokens outcomes' ∧ others = outcomes'.reduceOption ∧
        ∀ (i : Nat) (token : Text), tokens[i]? = some token → AgreeOn c d token →
          ∃ r, outcomes[i]? = some (some r) ∧ outcomes'[i]? = some (some r)) ∧
      rules.filter (·.predicate.names.isEmpty) = others.filter (·.predicate.names.isEmpty) := by
  refine ⟨fun e => value_parse_eq_error_iff.trans value_parse_eq_error_iff.symm,
    fun rules others h h' => ?_⟩
  obtain ⟨-, -, clauses, hreads, rfl⟩ := value_parse_eq_ok_iff.1 h
  obtain ⟨-, -, clauses', hreads', rfl⟩ := value_parse_eq_ok_iff.1 h'
  obtain rfl := hreads.unique hreads'
  have hreduce : ∀ catalog : Catalog, clauses.filterMap (·.resolve? catalog) =
      (clauses.map (·.resolve? catalog)).reduceOption := by
    intro catalog
    show _ = (clauses.map (·.resolve? catalog)).filterMap id
    rw [List.filterMap_map, Function.id_comp]
  refine ⟨⟨(pieces separator input).map Text.trim, clauses.map (·.resolve? c),
    clauses.map (·.resolve? d), hasTokens_iff.2 rfl, forall₂_gives_iff.2 ⟨clauses, hreads, rfl⟩,
    hreduce c, forall₂_gives_iff.2 ⟨clauses, hreads, rfl⟩, hreduce d, fun i token hi hagree => ?_⟩,
    filter_names_filterMap_resolve? clauses⟩
  have hparse := congrArg (·[i]?) hreads
  simp only [List.getElem?_map, hi, Option.map_some] at hparse
  obtain ⟨clause, hclause, hread⟩ := Option.map_eq_some_iff.1 hparse.symm
  obtain ⟨r, hc, hd⟩ := hagree.exists_resolve? hread.symm
  exact ⟨r, by simp [hclause, hc], by simp [hclause, hd]⟩

/-- The builtin catalog and its part with one suite refuse the same token.  They agree on the name
of the suite, and the part ignores another one. -/
theorem validity_in_part :
    (parse (Catalog.builtin.part (·.hasName (.of "RC4-SHA"))) (.of "kRSA: AES128-SHA+rsa")).value =
      .error (.badToken (.of "AES128-SHA+rsa") 6 .unknownKeyword) ∧
    (∃ r, Gives Catalog.builtin (.of "!RC4-SHA") (some r) ∧
      Gives (Catalog.builtin.part (·.hasName (.of "RC4-SHA"))) (.of "!RC4-SHA") (some r)) ∧
    ∃ others, (parse (Catalog.builtin.part (·.hasName (.of "RC4-SHA")))
        (.of "!RC4-SHA:kRSA:AES128-SHA:@STRENGTH")).value = .ok others ∧
      others.filter (·.predicate.names.isEmpty) =
        [⟨.add, .keyExchange [.rsa]⟩, .sortByStrength] := by
  have hinvalid : (parse Catalog.builtin (.of "kRSA: AES128-SHA+rsa")).value =
      .error (.badToken (.of "AES128-SHA+rsa") 6 .unknownKeyword) := rfl
  have hread : (parse Catalog.builtin (.of "!RC4-SHA:kRSA:AES128-SHA:@STRENGTH")).value = .ok
      [⟨.delete, .name [.of "TLS_RSA_WITH_RC4_128_SHA"]⟩, ⟨.add, .keyExchange [.rsa]⟩,
        ⟨.add, .name [.of "TLS_RSA_WITH_AES_128_CBC_SHA"]⟩, .sortByStrength] := rfl
  have hpart : (parse (Catalog.builtin.part (·.hasName (.of "RC4-SHA")))
      (.of "!RC4-SHA:kRSA:AES128-SHA:@STRENGTH")).value = .ok
      [⟨.delete, .name [.of "TLS_RSA_WITH_RC4_128_SHA"]⟩, ⟨.add, .keyExchange [.rsa]⟩,
        .sortByStrength] := rfl
  have hagree : AgreeOn Catalog.builtin (Catalog.builtin.part (·.hasName (.of "RC4-SHA")))
      (.of "!RC4-SHA") := by
    rintro op body words hop htoken hphrase word hword -
    cases op with
    | sortByStrength => exact absurd rfl hop
    | add =>
      -- a body does not begin with a sign
      subst htoken
      exact absurd (by decide) (hphrase.no_mark '!' rfl)
    | delete =>
      obtain rfl : .of "RC4-SHA" = body := (List.cons.inj htoken).2
      obtain rfl := Text.splits_iff.1 hphrase.splits
      obtain rfl : word = .of "RC4-SHA" := List.mem_singleton.1 hword
      exact ⟨_, _, rfl, rfl, rfl⟩
    | _ => cases htoken
  obtain ⟨herror, -⟩ := validity_independent_of_catalog Catalog.builtin
    (Catalog.builtin.part (·.hasName (.of "RC4-SHA"))) (.of "kRSA: AES128-SHA+rsa")
  obtain ⟨-, hrules⟩ := validity_independent_of_catalog Catalog.builtin
    (Catalog.builtin.part (·.hasName (.of "RC4-SHA"))) (.of "!RC4-SHA:kRSA:AES128-SHA:@STRENGTH")
  obtain ⟨⟨tokens, outcomes, outcomes', htokens, hgives, -, hgives', -, hsame⟩, hnames⟩ :=
    hrules _ _ hread hpart
  obtain rfl : tokens = [.of "!RC4-SHA", .of "kRSA", .of "AES128-SHA", .of "@STRENGTH"] :=
    hasTokens_iff.1 htokens
  obtain ⟨r, hr, hr'⟩ := hsame 0 _ rfl hagree
  cases hgives with | cons hfirst _ =>
  cases hgives' with | cons hfirst' _ =>
  cases hr
  cases hr'
  exact ⟨(herror _).1 hinvalid, ⟨r, hfirst, hfirst'⟩, _, hpart, hnames.symm⟩

end CipherRules.RuleString
