import CipherRules.Keyword
import CipherRules.Predicate.Depth

/-!
# Predicates — Directives

A predicate as a rule string would write it.  Keywords, single suite names and conjunctions that
lean to the left can be written; a directive, read again, gives the predicate that it was made
from.
-/

namespace CipherRules.Predicate

/-- The directive of a tree of any depth. -/
def writeDirective? : Predicate → Option Text
  | p@(.condition (.name names)) =>
      Keyword.spelling? p <|>
        match names.values with
        | [n] => if looksLikeSuiteName n then some n else none
        | _ => none
  | p@(.and left right) =>
      Keyword.spelling? p <|>
        match right.writeDirective? with
        | none => none
        | some r => if r.contains '+' then none else left.writeDirective?.map (· ++ '+' :: r)
  | p => Keyword.spelling? p

/-- The predicate in the words of a rule string, if they can express it and it is not too deep. -/
def directive? (p : Predicate) : Option Text :=
  if p.withinDepth then p.writeDirective? else none

end CipherRules.Predicate
