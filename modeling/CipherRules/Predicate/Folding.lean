import CipherRules.Predicate.Depth

/-!
# Predicates — Constant folding

Predicates that are seen, from their shape and the attribute families alone, to accept every suite
(`isAlwaysTrue`) or none (`isAlwaysFalse`).  No catalog is consulted; nothing is claimed of a
predicate deeper than the limit.
-/

namespace CipherRules

namespace Condition

/-- True of a condition that accepts the whole family.  There is no end of names. -/
def coversFamily : Condition → Bool
  | .protocol values       => values.coversFamily
  | .keyExchange values    => values.coversFamily
  | .authentication values => values.coversFamily
  | .encryption values     => values.coversFamily
  | .digest values         => values.coversFamily
  | .strength values       => values.coversFamily
  | .exportGrade values    => values.coversFamily
  | .fips values           => values.coversFamily
  | .name _                => false

/-- True of a condition without accepted values. -/
def isEmpty : Condition → Bool
  | .protocol values       => values.isEmpty
  | .keyExchange values    => values.isEmpty
  | .authentication values => values.isEmpty
  | .encryption values     => values.isEmpty
  | .digest values         => values.isEmpty
  | .strength values       => values.isEmpty
  | .exportGrade values    => values.isEmpty
  | .fips values           => values.isEmpty
  | .name values           => values.isEmpty

end Condition

namespace Predicate

mutual

/-- True if the shape shows that every suite is accepted. -/
def foldsToTrue : Predicate → Bool
  | .always      => true
  | .never       => false
  | .condition c => c.coversFamily
  | .and p q     => p.foldsToTrue && q.foldsToTrue
  | .or p q      => p.foldsToTrue || q.foldsToTrue
  | .not p       => p.foldsToFalse

/-- True if the shape shows that no suite is accepted. -/
def foldsToFalse : Predicate → Bool
  | .always      => false
  | .never       => true
  | .condition c => c.isEmpty
  | .and p q     => p.foldsToFalse || q.foldsToFalse
  | .or p q      => p.foldsToFalse && q.foldsToFalse
  | .not p       => p.foldsToTrue

end

/-- True of a predicate within the depth limit that visibly accepts every suite. -/
def isAlwaysTrue (p : Predicate) : Bool := p.withinDepth && p.foldsToTrue

/-- True of a predicate within the depth limit that visibly accepts no suite. -/
def isAlwaysFalse (p : Predicate) : Bool := p.withinDepth && p.foldsToFalse

end Predicate

end CipherRules
