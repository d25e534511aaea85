import CipherRules.Suite
import CipherRules.ValueSet

/-!
# Predicates

A predicate classifies suites.  Its leaves are conditions, each of which accepts a set of values
of one attribute, and the two constants; its nodes are conjunction, disjunction and negation.
`Predicate.accepts` is the meaning of a predicate.
-/

namespace CipherRules

/-- The attribute is one of the given values. -/
inductive Condition where
  | protocol (values : ValueSet Protocol)
  | keyExchange (values : ValueSet KeyExchange)
  | authentication (values : ValueSet Authentication)
  | encryption (values : ValueSet Encryption)
  | digest (values : ValueSet Digest)
  | strength (values : ValueSet Strength)
  | exportGrade (values : ValueSet Bool)
  | fips (values : ValueSet Bool)
  /-- The standard name is one of the given names. -/
  | name (values : ValueSet Text)
  deriving DecidableEq

/-- A classifier of suites. -/
inductive Predicate where
  /-- Every suite. -/
  | always
  /-- No suite. -/
  | never
  /-- The suites of which the condition holds. -/
  | condition (c : Condition)
  /-- The suites that both operands accept. -/
  | and (left right : Predicate)
  /-- The suites that some operand accepts. -/
  | or (left right : Predicate)
  /-- The suites that the operand does not accept. -/
  | not (operand : Predicate)
  deriving DecidableEq

/-- Whether the condition holds of a suite. -/
def Condition.accepts : Condition → Suite → Bool
  | .protocol values,       s => s.protocol ∈ values
  | .keyExchange values,    s => s.keyExchange ∈ values
  | .authentication values, s => s.authentication ∈ values
  | .encryption values,     s => s.encryption ∈ values
  | .digest values,         s => s.digest ∈ values
  | .strength values,       s => s.strength ∈ values
  | .exportGrade values,    s => s.exportGrade ∈ values
  | .fips values,           s => s.fips ∈ values
  | .name values,           s => s.name ∈ values

namespace Predicate

/-- Whether a suite is in the class. -/
def accepts : Predicate → Suite → Bool
  | .always,      _ => true
  | .never,       _ => false
  | .condition c, s => c.accepts s
  | .and p q,     s => p.accepts s && q.accepts s
  | .or p q,      s => p.accepts s || q.accepts s
  | .not p,       s => !p.accepts s

/-! ### Conditions as predicates -/

/-- Suites introduced in one of the versions. -/
def protocol (values : List Protocol) : Predicate := .condition (.protocol (.ofList values))

/-- Suites with one of the key exchange algorithms. -/
def keyExchange (values : List KeyExchange) : Predicate :=
  .condition (.keyExchange (.ofList values))

/-- Suites with one of the authentication algorithms. -/
def authentication (values : List Authentication) : Predicate :=
  .condition (.authentication (.ofList values))

/-- Suites with one of the ciphers. -/
def encryption (values : List Encryption) : Predicate := .condition (.encryption (.ofList values))

/-- Suites with one of the digests. -/
def digest (values : List Digest) : Predicate := .condition (.digest (.ofList values))

/-- Suites of one of the strength classes. -/
def strength (values : List Strength) : Predicate := .condition (.strength (.ofList values))

/-- Suites that are, or are not, export grade. -/
def exportGrade (value : Bool) : Predicate := .condition (.exportGrade (.singleton value))

/-- Suites that are, or are not, approved under FIPS 140. -/
def fips (value : Bool) : Predicate := .condition (.fips (.singleton value))

/-- Suites with one of the standard names. -/
def name (values : List Text) : Predicate := .condition (.name (.ofList values))

end Predicate

end CipherRules
