import CipherRules.Catalog
import CipherRules.Event
import CipherRules.Rule
import CipherRules.SelectionError
import CipherRules.Text.Blank

/-!
# Rule strings

A rule string is a list of tokens separated by colons, each with ASCII blanks around it at will.  A
token is the sorting directive, or a sign and terms joined by `+`, each of which is a keyword or
looks like the name of a suite.

`Token.read` goes through the terms of a token once, with the catalog at hand.  A name that the
catalog does not have (`Progress.isUnknown`) does not end this: the later terms are checked all the
same, and only when the token has been read to its end is it left out, and an event says so.

`RuleString.parse` reads the whole string.  The first token that cannot be read decides the error;
the tokens before it have already been reported if they were left out.
-/

namespace CipherRules

namespace RuleString

/-- What stands between two tokens. -/
def separator : Char := ':'

/-- What stands between two terms of a token. -/
def termSeparator : Char := '+'

/-- The characters of a token and the byte at which it starts. -/
structure Token where
  text : Text
  position : Nat
  deriving DecidableEq

/-- The token of a piece that starts at a byte offset. -/
def Token.ofPiece (offset : Nat) (piece : Text) : Token :=
  ⟨Text.trim piece, offset + Text.byteLength (Text.leadingBlanks piece)⟩

/-- The tokens of pieces that follow each other from a byte offset on, a separator apart. -/
def Token.ofPieces (offset : Nat) : List Text → List Token
  | [] => []
  | piece :: rest =>
      .ofPiece offset piece ::
        ofPieces (offset + Text.byteLength piece + separator.utf8Size) rest

/-- The tokens of a rule string. -/
def tokens (input : Text) : List Token := Token.ofPieces 0 (Text.pieces separator input)

/-! ### Terms -/

/-- The class that a word stands for, if it is no name that the catalog does not have. -/
def classOf? (catalog : Catalog) (word : Text) : Except TokenFault (Option Predicate) :=
  match Keyword.meaning? word with
  | some p => .ok (some p)
  | none =>
      if looksLikeSuiteName word then .ok ((catalog.lookup? word).map fun s => .name [s.name])
      else .error .unknownKeyword

/-- How far the terms of a token have been read. -/
structure Progress where
  /-- The conjunction of the classes so far, leaning to the left. -/
  class? : Option Predicate
  /-- Whether one of the names is unknown. -/
  isUnknown : Bool

namespace Progress

/-- Nothing read yet. -/
def start : Progress := ⟨none, false⟩

/-- Reads one more term. -/
def next (catalog : Catalog) (s : Progress) (word : Text) : Except TokenFault Progress :=
  if word.isEmpty then .error .missingTerm
  else match classOf? catalog word with
    | .error fault => .error fault
    | .ok none => .ok { s with isUnknown := true }
    | .ok (some p) => .ok { s with class? := some ((s.class?.map (.and · p)).getD p) }

/-- Reads more terms in order, up to the first that cannot be read. -/
def through (catalog : Catalog) (s : Progress) : List Text → Except TokenFault Progress
  | [] => .ok s
  | word :: rest =>
      match s.next catalog word with
      | .error fault => .error fault
      | .ok s => s.through catalog rest

end Progress

/-! ### Tokens -/

/-- True of the characters that may stand in front of a token, and so in front of no term. -/
def isLeadingMark (c : Char) : Bool := (Operation.ofSign? c).isSome || c == '@'

/-- Reads what stands behind the sign. -/
def readBody (catalog : Catalog) : Text → Except TokenFault Progress
  | [] => .error .missingTerm
  | c :: rest =>
      if isLeadingMark c then .error .conflictingOperators
      else
        let words := Text.pieces termSeparator (c :: rest)
        if Limits.termsPerToken < words.length then .error .tooManyTerms
        else Progress.start.through catalog words

namespace Token

/-- The error of a token. -/
def error (token : Token) (fault : TokenFault) : SelectionError :=
  .badToken token.text token.position fault

/-- The rule of a token whose body has been read, or the event that there is none. -/
def ofBody (token : Token) (operation : Operation) :
    Except TokenFault Progress → Traced (Except SelectionError (Option Rule))
  | .error fault => ⟨[], .error (token.error fault)⟩
  | .ok s =>
      if s.isUnknown then ⟨[.ignoredToken token.text token.position], .ok none⟩
      else ⟨[], .ok (s.class?.map fun p => ⟨operation, p⟩)⟩

/-- The rule of a token. -/
def read (catalog : Catalog) (token : Token) : Traced (Except SelectionError (Option Rule)) :=
  match token.text with
  | [] => ⟨[], .error (token.error .emptyToken)⟩
  | c :: rest =>
      if c = '@' then
        if c :: rest = Rule.strengthDirective then ⟨[], .ok (some .sortByStrength)⟩
        else ⟨[], .error (token.error .unknownDirective)⟩
      else match Operation.ofSign? c with
        | some operation => token.ofBody operation (readBody catalog rest)
        | none => token.ofBody .add (readBody catalog (c :: rest))

/-- The rules of tokens, up to the first that cannot be read. -/
def readAll (catalog : Catalog) : List Token → Traced (Except SelectionError (List Rule))
  | [] => ⟨[], .ok []⟩
  | token :: rest =>
      (token.read catalog).andThen fun rule? =>
        let others := readAll catalog rest
        ⟨others.events, others.value.map (rule?.toList ++ ·)⟩

end Token

/-- The rules of a rule string. -/
def parse (catalog : Catalog) (input : Text) : Traced (Except SelectionError (List Rule)) :=
  if Limits.ruleStringBytes < Text.byteLength input then
    ⟨[], .error (.ruleStringTooLong (Text.byteLength input))⟩
  else if Limits.rules < (tokens input).length then
    ⟨[], .error (.tooManyRules (tokens input).length)⟩
  else Token.readAll catalog (tokens input)

end RuleString

end CipherRules
