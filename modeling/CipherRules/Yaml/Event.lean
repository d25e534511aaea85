import CipherRules.Yaml.Token

/-!
# YAML — Events

A document as the series of its scalars, aliases, and starts and ends of collections.  Tokens are
turned into events by goals: each goal says what is expected next, and a token meets it, splits it
into further goals, or is an error.  Where a value is left out, the event of an empty scalar stands
for it.

The events before an error are kept.  `Events.isWhole` says that there was none and that the input
ends with the document.
-/

namespace CipherRules.Yaml

/-- What happens in the course of a document. -/
inductive Event where
  /-- A scalar with its anchor, its tag and its content, and whether it is without quotes. -/
  | scalar (anchor tag : Option Text) (content : Text) (isPlain : Bool)
  | alias (name : Text)
  | sequenceStart (anchor : Option Text)
  | sequenceEnd
  | mappingStart (anchor : Option Text)
  | mappingEnd
  deriving DecidableEq

/-- The events of the first document. -/
structure Events where
  events : List Event
  /-- Whether there is nothing wrong with the document, and nothing behind it. -/
  isWhole : Bool

/-- The scalar that stands for a value that is left out. -/
def Event.emptyScalar : Event := .scalar none none [] true

/-- What is expected next. -/
inductive Goal where
  /-- A value in a block. -/
  | blockNode
  /-- The key or the value of an entry in a block, which may be a sequence that is not indented. -/
  | entryNode
  /-- A value between brackets. -/
  | flowNode
  /-- An item of a sequence in a block, or its end. -/
  | blockItem
  /-- An item of a sequence that is not indented, or its end. -/
  | looseItem
  /-- An entry of a mapping in a block, or its end. -/
  | blockKey
  /-- The value of an entry in a block. -/
  | blockValue
  /-- An item between square brackets, or their end. -/
  | flowItem (isFirst : Bool)
  /-- The key of a single entry between square brackets. -/
  | pairKey
  /-- The value of a single entry between square brackets. -/
  | pairValue
  /-- The end of a single entry between square brackets. -/
  | pairEnd
  /-- An entry between braces, or their end. -/
  | flowKey (isFirst : Bool)
  /-- The value of an entry between braces. -/
  | flowValue
  /-- The value of an entry between braces that has none. -/
  | noValue

/-- What becomes of a goal: events, the goals that are left, and the tokens that are left. -/
abbrev Step := Option (List Event × List Goal × List Token)

/-- The meanings of the starts of tags. -/
abbrev Handles := List (Text × Text)

/-- The meanings that need no directive. -/
def Handles.standard : Handles := [(['!'], ['!']), (Text.of "!!", Text.of "tag:yaml.org,2002:")]

/-- The tag in full, unless the meaning of its start is unknown. -/
def Handles.resolve? (handles : Handles) (handle suffix : Text) : Option Text :=
  if handle.isEmpty then some suffix else (handles.lookup handle).map (· ++ suffix)

/-- What stands in front of a value. -/
structure Properties where
  anchor : Option Text
  /-- The start and the rest of the tag. -/
  tag : Option (Text × Text)

/-- Splits an anchor and a tag, in either order, from tokens. -/
def Properties.split : List Token → Properties × List Token
  | .anchor a :: .tag h s :: rest => (⟨some a, some (h, s)⟩, rest)
  | .anchor a :: rest => (⟨some a, none⟩, rest)
  | .tag h s :: .anchor a :: rest => (⟨some a, some (h, s)⟩, rest)
  | .tag h s :: rest => (⟨none, some (h, s)⟩, rest)
  | rest => (⟨none, none⟩, rest)

namespace Goal

/-- Meets the goal of a value with the tokens behind its properties. -/
def content (inBlock isEntry : Bool) (anchor tag : Option Text) (goals : List Goal) :
    List Token → Step
  | .scalar t isPlain :: rest => some ([.scalar anchor tag t isPlain], goals, rest)
  | .flowSequenceStart :: rest => some ([.sequenceStart anchor], .flowItem true :: goals, rest)
  | .flowMappingStart :: rest => some ([.mappingStart anchor], .flowKey true :: goals, rest)
  | .blockSequenceStart :: rest =>
      if inBlock then some ([.sequenceStart anchor], .blockItem :: goals, rest)
      else empty (.blockSequenceStart :: rest)
  | .blockMappingStart :: rest =>
      if inBlock then some ([.mappingStart anchor], .blockKey :: goals, rest)
      else empty (.blockMappingStart :: rest)
  | .blockEntry :: rest =>
      if isEntry then some ([.sequenceStart anchor], .looseItem :: goals, .blockEntry :: rest)
      else empty (.blockEntry :: rest)
  | [] => none
  | rest => empty rest
where
  /-- A value of which there are only the properties. -/
  empty (rest : List Token) : Step :=
    if anchor.isSome || tag.isSome then some ([.scalar anchor tag [] true], goals, rest) else none

/-- Meets the goal of a value. -/
def node (handles : Handles) (inBlock isEntry : Bool) (goals : List Goal) : List Token → Step
  | .alias name :: rest => some ([.alias name], goals, rest)
  | tokens =>
      let (properties, rest) := Properties.split tokens
      match properties.tag with
      | none => content inBlock isEntry properties.anchor none goals rest
      | some (handle, suffix) =>
          match handles.resolve? handle suffix with
          | none => none
          | some tag => content inBlock isEntry properties.anchor (some tag) goals rest

/-- Expects a value before one of some tokens, and stands in for it where it is left out. -/
def orEmpty (isEnd : Token → Bool) (goal : Goal) (goals : List Goal) : List Token → Step
  | [] => none
  | t :: rest =>
      if isEnd t then some ([.emptyScalar], goals, t :: rest)
      else some ([], goal :: goals, t :: rest)

/-- The tokens before which a key or a value in a block is left out. -/
def endsEntry : Token → Bool
  | .key | .value | .blockEnd => true
  | _ => false

/-- The tokens before which an item of a block is left out. -/
def endsItem : Token → Bool
  | .blockEntry | .blockEnd => true
  | _ => false

/-- The tokens before which an item is left out that is not indented. -/
def endsLooseItem : Token → Bool
  | .blockEntry | .key | .value | .blockEnd => true
  | _ => false

/-- The tokens before which a key between braces is left out. -/
def endsFlowKey : Token → Bool
  | .value | .flowEntry | .flowMappingEnd => true
  | _ => false

/-- The tokens before which a value between braces is left out. -/
def endsFlowValue : Token → Bool
  | .flowEntry | .flowMappingEnd => true
  | _ => false

/-- The tokens before which a value between square brackets is left out. -/
def endsPairValue : Token → Bool
  | .flowEntry | .flowSequenceEnd => true
  | _ => false

/-- Meets the goal of an item between square brackets, behind the comma. -/
def flowItemBody (goals : List Goal) : List Token → Step
  | .flowSequenceEnd :: rest => some ([.sequenceEnd], goals, rest)
  | .key :: rest => some ([.mappingStart none], .pairKey :: .flowItem false :: goals, rest)
  | tokens => some ([], .flowNode :: .flowItem false :: goals, tokens)

/-- Meets the goal of an entry between braces, behind the comma. -/
def flowKeyBody (goals : List Goal) : List Token → Step
  | .flowMappingEnd :: rest => some ([.mappingEnd], goals, rest)
  | .key :: rest => orEmpty endsFlowKey .flowNode (.flowValue :: .flowKey false :: goals) rest
  | tokens => some ([], .flowNode :: .noValue :: .flowKey false :: goals, tokens)

/-- Meets a goal. -/
def meet (handles : Handles) (goals : List Goal) (tokens : List Token) : Goal → Step
  | .blockNode => node handles true false goals tokens
  | .entryNode => node handles true true goals tokens
  | .flowNode => node handles false false goals tokens
  | .blockItem =>
      match tokens with
      | .blockEntry :: rest => orEmpty endsItem .blockNode (.blockItem :: goals) rest
      | .blockEnd :: rest => some ([.sequenceEnd], goals, rest)
      | _ => none
  | .looseItem =>
      match tokens with
      | .blockEntry :: rest => orEmpty endsLooseItem .blockNode (.looseItem :: goals) rest
      | [] => none
      | rest => some ([.sequenceEnd], goals, rest)
  | .blockKey =>
      match tokens with
      | .key :: rest => orEmpty endsEntry .entryNode (.blockValue :: goals) rest
      | .blockEnd :: rest => some ([.mappingEnd], goals, rest)
      | _ => none
  | .blockValue =>
      match tokens with
      | .value :: rest => orEmpty endsEntry .entryNode (.blockKey :: goals) rest
      | [] => none
      | rest => some ([.emptyScalar], .blockKey :: goals, rest)
  | .flowItem isFirst =>
      match isFirst, tokens with
      | true, tokens => flowItemBody goals tokens
      | false, .flowEntry :: rest => flowItemBody goals rest
      | false, .flowSequenceEnd :: rest => some ([.sequenceEnd], goals, rest)
      | false, _ => none
  | .pairKey =>
      match tokens with
      | [] => none
      | .value :: rest | .flowEntry :: rest | .flowSequenceEnd :: rest =>
          some ([.emptyScalar], .pairValue :: goals, rest)
      | tokens => some ([], .flowNode :: .pairValue :: goals, tokens)
  | .pairValue =>
      match tokens with
      | .value :: rest => orEmpty endsPairValue .flowNode (.pairEnd :: goals) rest
      | [] => none
      | rest => some ([.emptyScalar], .pairEnd :: goals, rest)
  | .pairEnd => if tokens.isEmpty then none else some ([.mappingEnd], goals, tokens)
  | .flowKey isFirst =>
      match isFirst, tokens with
      | true, tokens => flowKeyBody goals tokens
      | false, .flowEntry :: rest => flowKeyBody goals rest
      | false, .flowMappingEnd :: rest => some ([.mappingEnd], goals, rest)
      | false, _ => none
  | .flowValue =>
      match tokens with
      | .value :: rest => orEmpty endsFlowValue .flowNode goals rest
      | [] => none
      | rest => some ([.emptyScalar], goals, rest)
  | .noValue => if tokens.isEmpty then none else some ([.emptyScalar], goals, tokens)

/-- Meets goals in order, at most as many as the bound says; the tokens behind the last are left,
unless there was an error. -/
def meetAll (handles : Handles) : Nat → List Goal → List Token → List Event × Option (List Token)
  | 0, _, _ => ([], none)
  | _, [], tokens => ([], some tokens)
  | bound + 1, goal :: goals, tokens =>
      match goal.meet handles goals tokens with
      | none => ([], none)
      | some (events, goals, rest) =>
          let (later, end_) := meetAll handles bound goals rest
          (events ++ later, end_)

end Goal

/-! ### Documents -/

/-- Whether there is nothing but the end of the input behind a document. -/
def endsInput : List Token → Bool
  | .documentEnd :: rest => endsInput rest
  | .endOfInput :: _ => true
  | _ => false

/-- The goals that a token can bring, and the one that it meets, are no more than this. -/
def goalsPerToken : Nat := 6

/-- The events of a document whose content these tokens start. -/
def Events.ofContent (handles : Handles) (tokens : List Token) : Events :=
  match Goal.meetAll handles (goalsPerToken * (tokens.length + 1)) [.blockNode] tokens with
  | (events, some rest) => ⟨events, endsInput rest⟩
  | (events, none) => ⟨events, false⟩

/-- What the directives before a document have laid down. -/
structure Directives where
  hasVersion : Bool
  handles : Handles

/-- Reads the directives before a document. -/
def Directives.read? (d : Directives) : List Token → Option (Directives × List Token)
  | .version major minor :: rest =>
      if d.hasVersion || major ≠ 1 || !(minor == 1 || minor == 2) then none
      else read? { d with hasVersion := true } rest
  | .handle name meaning :: rest =>
      if (d.handles.lookup name).isSome then none
      else read? { d with handles := d.handles ++ [(name, meaning)] } rest
  | rest => some (d, rest)

/-- The tokens before which the content of a document is left out. -/
def endsDocument : Token → Bool
  | .version _ _ | .handle _ _ | .documentStart | .documentEnd | .endOfInput => true
  | _ => false

/-- The events of a document that has directives or a mark at its start. -/
def Events.ofMarked (tokens : List Token) : Events :=
  match Directives.read? ⟨false, []⟩ tokens with
  | some (d, .documentStart :: t :: rest) =>
      if endsDocument t then ⟨[.emptyScalar], endsInput (t :: rest)⟩
      else .ofContent (d.handles ++ Handles.standard) (t :: rest)
  | _ => ⟨[], false⟩

/-- The events of the first document. -/
def Events.ofTokens : List Token → Events
  | [] => ⟨[], false⟩
  | .endOfInput :: _ => ⟨[], true⟩
  | t :: rest =>
      match t with
      | .version _ _ | .handle _ _ | .documentStart => .ofMarked (t :: rest)
      | _ => .ofContent Handles.standard (t :: rest)

end CipherRules.Yaml
