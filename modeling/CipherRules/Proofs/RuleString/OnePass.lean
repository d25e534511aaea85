import CipherRules.RuleString.Clause

/-!
# Rule strings — One pass

A rule string is read in one pass, with the catalog at hand from the first term on.  It could as
well be read in two steps, of which only the second asks the catalog: the shape of each token, and
then the suites that it names.

What a pass has come to is compared with what the two steps have found (`Agrees`): a fault is the
same fault, and a pass that has seen an unknown name goes on to check the terms (`Progress.Shows`).

* `Progress.Shows.agrees_next`, `Progress.Shows.agrees_through`: one more term, and all that follow.
* `Token.read_eq`: a token.
* `parse_eq`: the rules and events of a rule string are those of its clauses.
-/

namespace CipherRules.RuleString

/-- A pass has come to a class, or to none yet, or past an unknown name; which class it holds then
does not matter. -/
inductive Progress.Shows : Progress → Option (Option Predicate) → Prop where
  | known (class? : Option Predicate) : Shows ⟨class?, false⟩ (some class?)
  | unknown (class? : Option Predicate) : Shows ⟨class?, true⟩ none

/-- A pass ends with the same fault, or shows what the two steps have found. -/
inductive Agrees :
    Except TokenFault Progress → Except TokenFault (Option (Option Predicate)) → Prop where
  | error (fault : TokenFault) : Agrees (.error fault) (.error fault)
  | ok {s : Progress} {found : Option (Option Predicate)} (h : s.Shows found) :
      Agrees (.ok s) (.ok found)

variable {catalog : Catalog} {s : Progress} {found : Option (Option Predicate)}
variable {p? : Option Predicate}

/-- A word has the class of the term that it is. -/
theorem classOf?_eq {word : Text} (h : ¬ word.isEmpty = true) :
    classOf? catalog word = (Term.parse word).map (·.resolve? catalog) := by
  rw [classOf?, Term.parse, if_neg h]
  cases Keyword.meaning? word with
  | some p => rfl
  | none => cases looksLikeSuiteName word <;> rfl

theorem Term.parse_of_isEmpty {word : Text} (h : word.isEmpty = true) :
    Term.parse word = .error .missingTerm := by
  rw [Term.parse, if_pos h]

/-- One more term is conjoined, if neither it nor one before is unknown. -/
theorem Progress.Shows.agrees_next (h : s.Shows found) (catalog : Catalog) (word : Text) :
    Agrees (s.next catalog word) ((Term.parse word).map fun term =>
      found.bind fun class? =>
        (term.resolve? catalog).map fun q => some ((class?.map (.and · q)).getD q)) := by
  rw [next]
  split
  · rename_i hempty
    rw [Term.parse_of_isEmpty hempty]
    exact .error _
  · rename_i hne
    rw [classOf?_eq hne]
    cases Term.parse word with
    | error fault => exact .error fault
    | ok term =>
      cases hterm : term.resolve? catalog with
      | none =>
        simp only [Except.map, hterm]
        cases h with
        | known class? => exact .ok (.unknown class?)
        | unknown class? => exact .ok (.unknown class?)
      | some q =>
        simp only [Except.map, hterm]
        cases h with
        | known class? => exact .ok (.known _)
        | unknown class? => exact .ok (.unknown _)

/-- The first term of a token. -/
theorem Progress.agrees_start_next (catalog : Catalog) (word : Text) :
    Agrees (start.next catalog word)
      ((Term.parse word).map fun term => (term.resolve? catalog).map some) :=
  (Shows.known none).agrees_next catalog word

/-- A term behind others. -/
theorem Progress.Shows.agrees_next_some (h : s.Shows (p?.map some)) (catalog : Catalog)
    (word : Text) :
    Agrees (s.next catalog word) ((Term.parse word).map fun term =>
      (p?.bind fun p => (term.resolve? catalog).map p.and).map some) := by
  have hnext := h.agrees_next catalog word
  cases p? with
  | none => exact hnext
  | some p =>
    simp only [Option.bind_some, Option.map_map]
    exact hnext

/-- **A pass through terms agrees with the two steps**, by induction on the words.  The catalog does
not tell where it ends. -/
theorem Progress.Shows.agrees_through (h : s.Shows (p?.map some)) (catalog : Catalog)
    (words : List Text) :
    Agrees (s.through catalog words) ((Term.parseAll words).map fun terms =>
      (p?.bind (Term.conjoin? catalog · terms)).map some) := by
  induction words generalizing s p? with
  | nil =>
    rw [through, Term.parseAll]
    cases p? <;> exact .ok h
  | cons word rest ih =>
    have hnext := h.agrees_next_some catalog word
    rw [through, Term.parseAll]
    generalize s.next catalog word = t at hnext ⊢
    cases hword : Term.parse word with
    | error fault =>
      rw [hword] at hnext
      cases hnext
      exact .error fault
    | ok term =>
      rw [hword] at hnext
      cases hnext with | ok hnext =>
      have hrest := ih hnext
      cases hterms : Term.parseAll rest with
      | error fault => rwa [hterms] at hrest
      | ok terms =>
        rw [hterms] at hrest
        have hconjoin : (p?.bind (Term.conjoin? catalog · (term :: terms))) =
            (p?.bind fun p => (term.resolve? catalog).map p.and).bind
              (Term.conjoin? catalog · terms) := by
          cases p? with
          | none => rfl
          | some p => cases hterm : term.resolve? catalog <;> simp [Term.conjoin?, hterm]
        show Agrees _ (.ok ((p?.bind (Term.conjoin? catalog · (term :: terms))).map some))
        rw [hconjoin]
        exact hrest

/-- What becomes of a token whose rule is known, or known to be missing. -/
def Token.ofRule? (token : Token) : Option Rule → Traced (Except SelectionError (Option Rule))
  | none => ⟨[.ignoredToken token.text token.position], .ok none⟩
  | some r => ⟨[], .ok (some r)⟩

theorem Token.ofBody_of_shows (h : s.Shows (p?.map some)) (token : Token) (operation : Operation) :
    token.ofBody operation (.ok s) = token.ofRule? (p?.map fun p => ⟨operation, p⟩) := by
  cases p? <;> cases h <;> rfl

theorem Clause.resolve?_apply (operation : Operation) (first : Term) (others : List Term) :
    (Clause.apply operation first others).resolve? catalog =
      ((first.resolve? catalog).bind (Term.conjoin? catalog · others)).map
        fun p => ⟨operation, p⟩ := by
  rw [resolve?]
  cases first.resolve? catalog <;> rfl

/-- What stands behind a sign, in one pass and in two steps. -/
theorem Token.ofBody_readBody (catalog : Catalog) (token : Token) (operation : Operation)
    (body : Text) :
    token.ofBody operation (readBody catalog body) =
      match Clause.parseBody operation body with
      | .error fault => ⟨[], .error (token.error fault)⟩
      | .ok clause => token.ofRule? (clause.resolve? catalog) := by
  cases body with
  | nil => rfl
  | cons c rest =>
    obtain ⟨first, others, hwords⟩ : ∃ first others,
        Text.split termSeparator (c :: rest) = (first, others) := ⟨_, _, rfl⟩
    simp only [readBody, Clause.parseBody, Text.pieces, hwords, List.length_cons]
    split
    · rfl
    · split
      · rfl
      · have hnext := Progress.agrees_start_next catalog first
        rw [Progress.through]
        generalize Progress.start.next catalog first = t at hnext ⊢
        cases hfirst : Term.parse first with
        | error fault =>
          rw [hfirst] at hnext
          cases hnext
          rfl
        | ok term =>
          rw [hfirst] at hnext
          cases hnext with | @ok s _ hnext =>
          have hrest := hnext.agrees_through catalog others
          show token.ofBody operation (s.through catalog others) = _
          generalize s.through catalog others = u at hrest ⊢
          cases hothers : Term.parseAll others with
          | error fault =>
            rw [hothers] at hrest
            cases hrest
            rfl
          | ok terms =>
            rw [hothers] at hrest
            cases hrest with | ok hrest =>
            rw [Token.ofBody_of_shows hrest]
            exact congrArg token.ofRule? (Clause.resolve?_apply operation term terms).symm

/-- **One pass through a token does what the two steps do.** -/
theorem Token.read_eq (catalog : Catalog) (token : Token) :
    token.read catalog =
      match Clause.parse token.text with
      | .error fault => ⟨[], .error (token.error fault)⟩
      | .ok clause => token.ofRule? (clause.resolve? catalog) := by
  rw [read]
  cases token.text with
  | nil => rfl
  | cons c rest =>
    simp only [Clause.parse]
    split
    · split <;> rfl
    · cases Operation.ofSign? c with
      | none => exact ofBody_readBody catalog token .add (c :: rest)
      | some operation => exact ofBody_readBody catalog token operation rest

theorem Token.readAll_eq (catalog : Catalog) (tokens : List Token) :
    readAll catalog tokens = rulesOf catalog tokens := by
  induction tokens with
  | nil => rfl
  | cons token rest ih =>
    rw [readAll, rulesOf, ih, read_eq]
    cases Clause.parse token.text with
    | error fault => rfl
    | ok clause =>
      obtain ⟨events, value⟩ := rulesOf catalog rest
      cases hrule : clause.resolve? catalog with
      | none => cases value <;> simp [Traced.andThen, ofRule?, hrule, Except.map]
      | some r => cases value <;> simp [Traced.andThen, ofRule?, hrule, Except.map]

/-- **The rules and events of a rule string are those of its clauses.** -/
theorem parse_eq (catalog : Catalog) (input : Text) :
    parse catalog input =
      if Limits.ruleStringBytes < Text.byteLength input then
        ⟨[], .error (.ruleStringTooLong (Text.byteLength input))⟩
      else if Limits.rules < (tokens input).length then
        ⟨[], .error (.tooManyRules (tokens input).length)⟩
      else rulesOf catalog (tokens input) := by
  rw [parse, Token.readAll_eq]

end CipherRules.RuleString
