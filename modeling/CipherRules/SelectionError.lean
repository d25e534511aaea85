import CipherRules.Limits
import CipherRules.Text

/-!
# Selection errors

Why a rule string or a list of rules gives no selection.
-/

namespace CipherRules

/-- Why a token of a rule string cannot be read. -/
inductive TokenFault where
  /-- Nothing stands between two separators. -/
  | emptyToken
  /-- A word is neither a keyword nor shaped like a suite name. -/
  | unknownKeyword
  /-- More than one sign stands in front. -/
  | conflictingOperators
  /-- A sign has no term behind it. -/
  | missingTerm
  /-- The word after `@` is not known. -/
  | unknownDirective
  /-- More terms are joined than a token may have. -/
  | tooManyTerms
  deriving DecidableEq

/-- The wording of the fault. -/
def TokenFault.message : TokenFault → Text
  | .emptyToken           => .of "empty token"
  | .unknownKeyword       => .of "unknown keyword"
  | .conflictingOperators => .of "conflicting operator prefixes"
  | .missingTerm          => .of "operator without a term"
  | .unknownDirective     => .of "unknown directive"
  | .tooManyTerms         => .of "too many terms in one token"

/-- Why there is no selection. -/
inductive SelectionError where
  /-- The token that starts at a byte position cannot be read. -/
  | badToken (token : Text) (position : Nat) (fault : TokenFault)
  /-- The rules, written out, leave no suite selected. -/
  | emptySelection (rule : Text)
  /-- The rule string has too many bytes. -/
  | ruleStringTooLong (length : Nat)
  /-- There are too many tokens or rules. -/
  | tooManyRules (attempted : Nat)
  /-- A predicate is nested too deeply. -/
  | predicateTooDeep
  deriving DecidableEq

/-- The wording of the error. -/
def SelectionError.message : SelectionError → Text
  | .badToken token position fault =>
      Text.of "Invalid cipher rule token '" ++ token ++ Text.of "' at position "
        ++ Text.ofNat position ++ Text.of ": " ++ fault.message
  | .emptySelection rule =>
      Text.of "Cipher rule '" ++ rule ++ Text.of "' selects no cipher suites"
  | .ruleStringTooLong length =>
      Text.of "Cipher rule string exceeds maximum " ++ Text.ofNat Limits.ruleStringBytes
        ++ Text.of " characters (length: " ++ Text.ofNat length ++ [')']
  | .tooManyRules attempted =>
      Text.of "Cipher rule string exceeds maximum " ++ Text.ofNat Limits.rules
        ++ Text.of " tokens (attempted: " ++ Text.ofNat attempted ++ [')']
  | .predicateTooDeep =>
      Text.of "Predicate exceeds maximum depth of " ++ Text.ofNat Limits.predicateDepth

end CipherRules
