import CipherRules.Command.Help

/-!
# Commands — Arguments

What the arguments of a run ask for.  Arguments are read from left to right: the first that is
wrong, or that asks for help or for the version, decides.  Before the command only options may
stand; behind it, a single word is what the command is about.  Behind two hyphens every argument
is a word.  Options for more detail may stand on either side of the command, and if they stand on
both, only those behind it count.
-/

namespace CipherRules.Command

/-- The commands by name. -/
inductive Name where
  | evaluate | explain | check
  deriving DecidableEq

/-- The command of a word. -/
def Name.ofWord? (word : Text) : Option Name :=
  if word = Text.of "eval" then some .evaluate
  else if word = Text.of "explain" then some .explain
  else if word = Text.of "check" then some .check
  else none

/-- The page of help about a command. -/
def Name.page : Name → Page
  | .evaluate => .evaluate
  | .explain => .explain
  | .check => .check

/-- A command with what it is about. -/
inductive Request where
  | evaluate (rule? : Option Text) (otherNames : Bool)
  | explain (rule : Text)
  | check (file : Text)
  deriving DecidableEq

/-- What arguments ask for. -/
inductive Wish where
  /-- A command, at some verbosity. -/
  | run (request : Request) (verbosity : Nat)
  | help (page : Page)
  | version
  /-- The arguments make no sense. -/
  | refused
  deriving DecidableEq

/-- What has been given to a command. -/
structure Given where
  word? : Option Text
  otherNames : Bool
  verbosity : Nat

/-- What options behind one hyphen do. -/
inductive Options where
  /-- They ask so many times for more detail. -/
  | detail (count : Nat)
  | help
  | version
  | unknown
  deriving DecidableEq

/-- Reads options behind one hyphen, after so many for more detail; the version can be asked for
only where it is allowed. -/
def Options.ofLetters (allowsVersion : Bool) : Nat → Text → Options
  | count, [] => .detail count
  | count, c :: rest =>
      if c = 'v' then ofLetters allowsVersion (count + 1) rest
      else if c = 'h' then .help
      else if c = 'V' ∧ allowsVersion then .version
      else .unknown

/-- Reads an option behind two hyphens. -/
def Options.ofWord (allowsVersion : Bool) (word : Text) : Options :=
  if word = Text.of "verbose" then .detail 1
  else if word = Text.of "help" then .help
  else if word = Text.of "version" ∧ allowsVersion then .version
  else .unknown

/-- Reads an argument as options, unless it is a word; a hyphen alone is one. -/
def Options.ofArgument? (allowsVersion : Bool) : Text → Option Options
  | '-' :: '-' :: word => some (.ofWord allowsVersion word)
  | '-' :: c :: letters => some (.ofLetters allowsVersion 0 (c :: letters))
  | _ => none

/-- Two hyphens, behind which there are no options. -/
def endOfOptions : Text := .of "--"

/-- The option for the other names of suites. -/
def otherNamesOption : Text := .of "--openssl"

namespace Given

/-- Adds a word, of which a command takes one. -/
def addWord? (g : Given) (word : Text) : Option Given :=
  if g.word?.isSome then none else some { g with word? := some word }

/-- Asks for the other names, which can be done once, and only of the command that prints names. -/
def askOtherNames? (g : Given) (name : Name) : Option Given :=
  if g.otherNames || name ≠ .evaluate then none else some { g with otherNames := true }

/-- Adds words alone. -/
def addWords? (g : Given) : List Text → Option Given
  | [] => some g
  | word :: rest =>
      match g.addWord? word with
      | none => none
      | some g => g.addWords? rest

/-- What a command is asked to do with what has been given, at a verbosity laid down before it. -/
def wish (g : Given) (name : Name) (verbosity : Nat) : Wish :=
  let verbosity := if g.verbosity = 0 then verbosity else g.verbosity
  match name, g.word? with
  | .evaluate, rule? => .run (.evaluate rule? g.otherNames) verbosity
  | .explain, some rule => .run (.explain rule) verbosity
  | .check, some file => .run (.check file) verbosity
  | .explain, none | .check, none => .refused

end Given

/-- Reads the arguments behind a command. -/
def wishBehind (name : Name) (verbosity : Nat) : Given → List Text → Wish
  | g, [] => g.wish name verbosity
  | g, a :: rest =>
      if a = endOfOptions then
        match g.addWords? rest with
        | none => .refused
        | some g => g.wish name verbosity
      else if a = otherNamesOption then
        match g.askOtherNames? name with
        | none => .refused
        | some g => wishBehind name verbosity g rest
      else match Options.ofArgument? false a with
        | some (.detail n) =>
            wishBehind name verbosity { g with verbosity := g.verbosity + n } rest
        | some .help => .help name.page
        | some .version | some .unknown => .refused
        | none =>
            match g.addWord? a with
            | none => .refused
            | some g => wishBehind name verbosity g rest

/-- Reads the words behind the command for help. -/
def wishForHelp : List Text → Wish
  | [] => .help .overview
  | [word] =>
      if word = Text.of "help" then .help .help
      else match Name.ofWord? word with
        | some name => .help name.page
        | none => .refused
  | _ => .refused

/-- Reads arguments, after options for so much detail. -/
def wishAfter : Nat → List Text → Wish
  | _, [] => .refused
  | verbosity, a :: rest =>
      if a = endOfOptions then .refused
      else match Options.ofArgument? true a with
        | some (.detail n) => wishAfter (verbosity + n) rest
        | some .help => .help .overview
        | some .version => .version
        | some .unknown => .refused
        | none =>
            if a = Text.of "help" then wishForHelp rest
            else match Name.ofWord? a with
              | some name => wishBehind name verbosity ⟨none, false, 0⟩ rest
              | none => .refused

/-- What arguments ask for. -/
def wish (arguments : List Text) : Wish := wishAfter 0 arguments

/-- The file that a wish is about. -/
def Wish.file? : Wish → Option Text
  | .run (.check file) _ => some file
  | _ => none

end CipherRules.Command
