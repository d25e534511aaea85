import CipherRules.Yaml.Token

/-!
# YAML — Reading tokens

Reads the tokens of a document.  Whether something is a key shows only at the colon behind it, so
the reader remembers for each level of brackets where a key may have started (`Candidate`); at a
colon it puts the tokens of a key, and of a block if one begins there, in front of that place.  A
key has to end on its line and within 1024 characters; where a block of entries demands a key, its
absence is an error.

After an error there are no more tokens.  Of those before, the ones are certain that no key can
come before any more (`Reading.certain`).
-/

namespace CipherRules.Yaml

/-- A place where a key may have started. -/
structure Candidate where
  /-- The number of tokens before it. -/
  number : Nat
  place : Place
  /-- Whether nothing but a key may start there. -/
  isRequired : Bool

/-- The greatest distance between the start of a key and the colon behind it. -/
def keyReach : Nat := 1024

/-- Whether the colon of a key can no longer come. -/
def Candidate.isStale (c : Candidate) (p : Place) : Bool :=
  c.place.line < p.line || c.place.column + keyReach < p.column

/-- How far a document has been read. -/
structure Reading where
  cursor : Cursor
  /-- The tokens so far, the latest first. -/
  tokens : List Token
  /-- The columns of the blocks that are open, the innermost first. -/
  blocks : List Nat
  /-- The candidate at the present level of brackets. -/
  key : Option Candidate
  /-- The candidates at the levels around it, the innermost first. -/
  outer : List (Option Candidate)
  /-- Whether a key, or an entry of a block, may start here. -/
  mayStartKey : Bool

namespace Reading

/-- The reading before the first character. -/
def start (t : Text) : Reading := ⟨⟨⟨0, 0⟩, t⟩, [], [], none, [], true⟩

/-- Whether the place is inside brackets. -/
def inBrackets (r : Reading) : Bool := !r.outer.isEmpty

/-- The first column that is inside the innermost block. -/
def margin (r : Reading) : Nat :=
  match r.blocks with
  | [] => 0
  | column :: _ => column + 1

/-- The column of the cursor. -/
def column (r : Reading) : Nat := r.cursor.place.column

/-- Adds a token. -/
def push (r : Reading) (t : Token) : Reading := { r with tokens := t :: r.tokens }

/-- Puts a token in front of all but so many tokens. -/
def insert (r : Reading) (number : Nat) (t : Token) : Reading :=
  { r with tokens := r.tokens.insertIdx (r.tokens.length - number) t }

/-- Adds a token and moves the cursor behind it. -/
def pushTo (r : Reading) (t : Token) (cursor : Cursor) : Reading := { r.push t with cursor }

/-- Adds the token of so many characters of the line. -/
def pushMark (r : Reading) (t : Token) (length : Nat) : Reading :=
  r.pushTo t ⟨r.cursor.place.advance length, r.cursor.rest.drop length⟩

/-! ### Candidates -/

/-- A level without the candidate for which it is too late; it is an error to miss one that is
required. -/
def stillPossible? (p : Place) : Option Candidate → Option (Option Candidate)
  | none => some none
  | some c => if !c.isStale p then some (some c) else if c.isRequired then none else some none

/-- Drops all candidates for which it is too late. -/
def review? (r : Reading) : Option Reading :=
  match stillPossible? r.cursor.place r.key, r.outer.mapM (stillPossible? r.cursor.place) with
  | some key, some outer => some { r with key, outer }
  | _, _ => none

/-- Drops the candidate of this level. -/
def dropKey? (r : Reading) : Option Reading :=
  match r.key with
  | some c => if c.isRequired then none else some { r with key := none }
  | none => some r

/-- Remembers that a key may start here, if it may; no other can from then on. -/
def saveKey? (r : Reading) : Option Reading :=
  if !r.mayStartKey then some r
  else r.dropKey?.map fun r =>
    let isRequired := !r.inBrackets && r.blocks.head? == some r.column
    { r with key := some ⟨r.tokens.length, r.cursor.place, isRequired⟩, mayStartKey := false }

/-- Lets a key, or an entry of a block, start here or not. -/
def allowKey (r : Reading) (allowed : Bool) : Reading := { r with mayStartKey := allowed }

/-- The tokens in front of which no key can come any more. -/
def certain (r : Reading) : List Token :=
  let number? := (r.key :: r.outer).foldl (fun least c =>
    match c with
    | none => least
    | some c => some (match least with | none => c.number | some n => min n c.number)) none
  match number? with
  | some n => r.tokens.reverse.take n
  | none => r.tokens.reverse

/-! ### Blocks -/

/-- Ends the blocks whose column is not below a bound, which brackets prevent. -/
def closeBlocks (r : Reading) (bound : Nat) : Reading :=
  if r.inBrackets then r
  else
    let closed := r.blocks.takeWhile (bound ≤ ·)
    { r with
      blocks := r.blocks.dropWhile (bound ≤ ·)
      tokens := List.replicate closed.length .blockEnd ++ r.tokens }

/-- Whether a block has to be opened for a token in a column. -/
def needsBlock (r : Reading) (column : Nat) : Bool := !r.inBrackets && r.margin ≤ column

/-- Opens a block in a column, if it has to be, with its token in front of all but so many. -/
def openBlock (r : Reading) (column number : Nat) (t : Token) : Reading :=
  if r.needsBlock column then { r.insert number t with blocks := column :: r.blocks } else r

/-- Opens a block at the cursor, if it has to be. -/
def openBlockHere (r : Reading) (t : Token) : Reading := r.openBlock r.column r.tokens.length t

/-! ### Blanks and comments -/

/-- Moves over blanks, comments and line ends; tabs may not stand where a key may start, and behind
a line end one may, except in brackets. -/
def skip (inBrackets : Bool) : Bool → Bool → Place → Text → Bool × Cursor
  | mayStartKey, _, p, [] => (mayStartKey, ⟨p, []⟩)
  | mayStartKey, inComment, p, c :: rest =>
      if isBreak c then skip inBrackets (mayStartKey || !inBrackets) false p.nextLine rest
      else if inComment then skip inBrackets mayStartKey true p.next rest
      else if c == '\ufeff' && p.column == 0 then skip inBrackets mayStartKey false p.next rest
      else if c == ' ' || (c == '\t' && (inBrackets || !mayStartKey)) then
        skip inBrackets mayStartKey false p.next rest
      else if c == '#' then skip inBrackets mayStartKey true p.next rest
      else (mayStartKey, ⟨p, c :: rest⟩)

/-- Moves to the next token. -/
def toToken (r : Reading) : Reading :=
  let (mayStartKey, cursor) := skip r.inBrackets r.mayStartKey false r.cursor.place r.cursor.rest
  { r with mayStartKey, cursor }

/-! ### Tokens -/

/-- Ends the document. -/
def endInput? (r : Reading) : Option Reading :=
  let p := r.cursor.place
  let r := { r with cursor := ⟨if p.column = 0 then p else p.nextLine, []⟩ }
  (r.closeBlocks 0).dropKey?.map fun r => (r.allowKey false).push .endOfInput

/-- A mark that bounds a document. -/
def boundary? (r : Reading) (t : Token) : Option Reading :=
  (r.closeBlocks 0).dropKey?.map fun r => (r.allowKey false).pushMark t 3

/-- A directive. -/
def directive? (r : Reading) (t : Text) : Option Reading :=
  match (r.closeBlocks 0).dropKey?, Yaml.directive? t with
  | some r, some (token, rest) => some ((r.allowKey false).pushTo token (r.cursor.skipTo rest))
  | _, _ => none

/-- An opening bracket. -/
def openBracket? (r : Reading) (t : Token) : Option Reading :=
  r.saveKey?.map fun r =>
    { (r.allowKey true).pushMark t 1 with key := none, outer := r.key :: r.outer }

/-- A closing bracket. -/
def closeBracket? (r : Reading) (t : Token) : Option Reading :=
  r.dropKey?.map fun r =>
    let r := (r.allowKey false).pushMark t 1
    match r.outer with
    | key :: outer => { r with key, outer }
    | [] => r

/-- A comma between brackets. -/
def comma? (r : Reading) : Option Reading :=
  r.dropKey?.map fun r => (r.allowKey true).pushMark .flowEntry 1

/-- The dash of an item. -/
def dash? (r : Reading) : Option Reading :=
  if !r.inBrackets && !r.mayStartKey then none
  else (r.openBlockHere .blockSequenceStart).dropKey?.map fun r =>
    (r.allowKey true).pushMark .blockEntry 1

/-- The question mark of a key. -/
def question? (r : Reading) : Option Reading :=
  if !r.inBrackets && !r.mayStartKey then none
  else (r.openBlockHere .blockMappingStart).dropKey?.map fun r =>
    (r.allowKey !r.inBrackets).pushMark .key 1

/-- The colon of a value, which makes a key of the candidate if there is one. -/
def colon? (r : Reading) : Option Reading :=
  match r.key with
  | some c =>
      let r := (r.insert c.number .key).openBlock c.place.column c.number .blockMappingStart
      some (({ r with key := none }.allowKey false).pushMark .value 1)
  | none =>
      if !r.inBrackets && !r.mayStartKey then none
      else some (((r.openBlockHere .blockMappingStart).allowKey !r.inBrackets).pushMark .value 1)

/-- An anchor, an alias or a tag. -/
def word? (r : Reading) (read : Option (Token × Text)) : Option Reading :=
  match r.saveKey?, read with
  | some r, some (token, rest) => some ((r.allowKey false).pushTo token (r.cursor.skipTo rest))
  | _, _ => none

/-- A text in quotes. -/
def quoted? (r : Reading) (read : Option (Text × Cursor)) : Option Reading :=
  match r.saveKey?, read with
  | some r, some (content, cursor) =>
      some ((r.allowKey false).pushTo (.scalar content false) cursor)
  | _, _ => none

/-- A plain scalar. -/
def plainScalar? (r : Reading) : Option Reading :=
  match r.saveKey?, plain? r.inBrackets r.margin r.cursor.place .empty r.cursor.rest with
  | some r, some (content, endsLine, cursor) =>
      some ((r.allowKey endsLine).pushTo (.scalar content true) cursor)
  | _, _ => none

/-- A block scalar. -/
def blockScalar? (r : Reading) (isFolded : Bool) (t : Text) : Option Reading :=
  match r.dropKey?, block? isFolded r.margin r.cursor.place t with
  | some r, some (content, cursor) =>
      some ((r.allowKey true).pushTo (.scalar content false) cursor)
  | _, _ => none

/-- Whether a plain scalar may start with a character. -/
def startsPlain (inBrackets : Bool) (c : Char) (rest : Text) : Bool :=
  if c == '-' then !startsWith isBlank rest
  else if c == '?' || c == ':' then !inBrackets && !atGap rest
  else !isBlank c && !(Text.of ",[]\x7b\x7d#&*!|>'\"%@`").contains c

/-- The token at the cursor. -/
def token? (r : Reading) : Option Reading :=
  match r.cursor.rest with
  | [] => r.endInput?
  | c :: rest =>
      let t := c :: rest
      let next := r.cursor.place.next
      if r.column == 0 && c == '%' then r.directive? rest
      else if r.column == 0 && startsWithMark '-' t then r.boundary? .documentStart
      else if r.column == 0 && startsWithMark '.' t then r.boundary? .documentEnd
      else if c == '[' then r.openBracket? .flowSequenceStart
      else if c == '\x7b' then r.openBracket? .flowMappingStart
      else if c == ']' then r.closeBracket? .flowSequenceEnd
      else if c == '\x7d' then r.closeBracket? .flowMappingEnd
      else if c == ',' then r.comma?
      else if c == '-' && atGap rest then r.dash?
      else if c == '?' && (r.inBrackets || atGap rest) then r.question?
      else if c == ':' && (r.inBrackets || atGap rest) then r.colon?
      else if c == '*' then r.word? ((anchorName? rest).map fun a => (.alias a.1, a.2))
      else if c == '&' then r.word? ((anchorName? rest).map fun a => (.anchor a.1, a.2))
      else if c == '!' then r.word? (tag? r.inBrackets t)
      else if c == '|' && !r.inBrackets then r.blockScalar? false rest
      else if c == '>' && !r.inBrackets then r.blockScalar? true rest
      else if c == '\'' then r.quoted? (single? next .empty rest)
      else if c == '"' then r.quoted? (double? next .empty none rest)
      else if startsPlain r.inBrackets c rest then r.plainScalar?
      else none

/-- Reads the next token, and those of the blocks that end or start with it. -/
def next? (r : Reading) : Option Reading :=
  match r.toToken.review? with
  | none => none
  | some r =>
      match (r.closeBlocks (r.column + 1)).token? with
      | none => none
      | some r => r.review?

/-- Reads the tokens that are left, at most as many as the bound says. -/
def finish : Nat → Reading → List Token
  | 0, r => r.certain
  | bound + 1, r =>
      if r.tokens.head? == some .endOfInput then r.tokens.reverse
      else match r.next? with
        | none => r.certain
        | some r => finish bound r

end Reading

/-- The tokens of a document up to the first error.  Every token but the last is made of at least
one character. -/
def tokens (t : Text) : List Token :=
  if !t.all isAllowed then []
  else
    let t := unifyBreaks t
    Reading.finish (t.length + 2) (.start t)

end CipherRules.Yaml
