import CipherRules.RuleString

/-!
# Rule strings — Clauses

The reading of a token in two steps.  `Clause.parse` sees its shape, for which no catalog is needed;
`Clause.resolve?` finds the suites that a clause names in a catalog, and gives no rule where it
names one that the catalog does not have.  `rulesOf` reads tokens in this way.
-/

namespace CipherRules

namespace RuleString

/-- A term of a token. -/
inductive Term where
  /-- A word that stands for a class. -/
  | keyword (meaning : Predicate)
  /-- A word that looks like the name of a suite. -/
  | suite (name : Text)
  deriving DecidableEq

/-- A token whose shape is known. -/
inductive Clause where
  /-- Sort the selection by strength. -/
  | sortByStrength
  /-- Apply the operation to the suites that all terms describe. -/
  | apply (operation : Operation) (first : Term) (others : List Term)
  deriving DecidableEq

/-- Reads one term. -/
def Term.parse (word : Text) : Except TokenFault Term :=
  if word.isEmpty then .error .missingTerm
  else match Keyword.meaning? word with
    | some p => .ok (.keyword p)
    | none => if looksLikeSuiteName word then .ok (.suite word) else .error .unknownKeyword

/-- Reads terms in order, up to the first that cannot be read. -/
def Term.parseAll : List Text → Except TokenFault (List Term)
  | [] => .ok []
  | word :: rest =>
      match Term.parse word with
      | .error fault => .error fault
      | .ok term =>
          match Term.parseAll rest with
          | .error fault => .error fault
          | .ok terms => .ok (term :: terms)

/-- Reads what stands behind the sign. -/
def Clause.parseBody (operation : Operation) : Text → Except TokenFault Clause
  | [] => .error .missingTerm
  | c :: rest =>
      if isLeadingMark c then .error .conflictingOperators
      else
        let (first, others) := Text.split termSeparator (c :: rest)
        if Limits.termsPerToken < others.length + 1 then .error .tooManyTerms
        else
          match Term.parse first with
          | .error fault => .error fault
          | .ok term =>
              match Term.parseAll others with
              | .error fault => .error fault
              | .ok terms => .ok (.apply operation term terms)

/-- Reads the shape of a token. -/
def Clause.parse : Text → Except TokenFault Clause
  | [] => .error .emptyToken
  | c :: rest =>
      if c = '@' then
        if c :: rest = Rule.strengthDirective then .ok .sortByStrength
        else .error .unknownDirective
      else match Operation.ofSign? c with
        | some operation => parseBody operation rest
        | none => parseBody .add (c :: rest)

/-- The class that a term stands for, unless it names a suite the catalog does not have. -/
def Term.resolve? (catalog : Catalog) : Term → Option Predicate
  | .keyword p => some p
  | .suite n => (catalog.lookup? n).map fun s => .name [s.name]

/-- The conjunction of a class with those of further terms, leaning to the left. -/
def Term.conjoin? (catalog : Catalog) (p : Predicate) : List Term → Option Predicate
  | [] => some p
  | term :: rest =>
      match term.resolve? catalog with
      | none => none
      | some q => conjoin? catalog (.and p q) rest

/-- The rule of a clause, unless it names a suite the catalog does not have. -/
def Clause.resolve? (catalog : Catalog) : Clause → Option Rule
  | .sortByStrength => some .sortByStrength
  | .apply operation first others =>
      match first.resolve? catalog with
      | none => none
      | some p => (Term.conjoin? catalog p others).map fun q => ⟨operation, q⟩

/-- The rules of tokens, up to the first token that cannot be read. -/
def rulesOf (catalog : Catalog) : List Token → Traced (Except SelectionError (List Rule))
  | [] => ⟨[], .ok []⟩
  | token :: rest =>
      match Clause.parse token.text with
      | .error fault => ⟨[], .error (.badToken token.text token.position fault)⟩
      | .ok clause =>
          let others := rulesOf catalog rest
          match clause.resolve? catalog with
          | none => ⟨.ignoredToken token.text token.position :: others.events, others.value⟩
          | some rule => ⟨others.events, others.value.map (rule :: ·)⟩

end RuleString

end CipherRules
