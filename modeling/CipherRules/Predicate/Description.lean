import CipherRules.Predicate.Depth

/-!
# Predicates — Description

The description of a predicate in words.  Operands stand in parentheses, and a condition names its
attribute and lists its values, so that the description shows the whole tree.
-/

namespace CipherRules

namespace Condition

/-- The attribute that the condition is about. -/
def subject : Condition → Text
  | .protocol _       => .of "protocol"
  | .keyExchange _    => .of "key exchange"
  | .authentication _ => .of "authentication"
  | .encryption _     => .of "encryption"
  | .digest _         => .of "digest"
  | .strength _       => .of "strength"
  | .exportGrade _    => .of "export"
  | .fips _           => .of "fips"
  | .name _           => .of "name"

/-- The written forms of the accepted values. -/
def valueLabels : Condition → List Text
  | .protocol values       => values.labels
  | .keyExchange values    => values.labels
  | .authentication values => values.labels
  | .encryption values     => values.labels
  | .digest values         => values.labels
  | .strength values       => values.labels
  | .exportGrade values    => values.labels
  | .fips values           => values.labels
  | .name values           => values.labels

/-- The attribute and the accepted values. -/
def describe (c : Condition) : Text :=
  c.subject ++ Text.of " is one of (" ++ Text.join (.of ", ") c.valueLabels ++ [')']

end Condition

namespace Predicate

/-- The whole tree in words. -/
def describe : Predicate → Text
  | .always      => .of "true"
  | .never       => .of "false"
  | .condition c => c.describe
  | .and p q     => ['('] ++ p.describe ++ Text.of ") and (" ++ q.describe ++ [')']
  | .or p q      => ['('] ++ p.describe ++ Text.of ") or (" ++ q.describe ++ [')']
  | .not p       => Text.of "not (" ++ p.describe ++ [')']

/-- The tree in words, unless it is too deep. -/
def description (p : Predicate) : Text :=
  if p.withinDepth then p.describe
  else Text.of "predicate nested deeper than " ++ Text.ofNat Limits.predicateDepth

end Predicate

end CipherRules
