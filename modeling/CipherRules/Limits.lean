/-!
# Limits

The bounds on everything that is read from outside, all of them inclusive.
-/

namespace CipherRules.Limits

/-- The most bytes of a rule string. -/
def ruleStringBytes : Nat := 4096

/-- The most rules of a rule string or of a build. -/
def rules : Nat := 256

/-- The most terms of one token. -/
def termsPerToken : Nat := 16

/-- The greatest depth of a predicate. -/
def predicateDepth : Nat := 32

/-- The most bytes of a policy name. -/
def policyNameBytes : Nat := 128

/-- The most arrays and inline tables of a policy document that stand in each other. -/
def nestedValues : Nat := 80

/-- The most parts of a dotted key in a policy document. -/
def keyParts : Nat := 80

end CipherRules.Limits
