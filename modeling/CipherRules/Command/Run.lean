import CipherRules.Command.Arguments
import CipherRules.Command.Check
import CipherRules.Command.Evaluate
import CipherRules.Command.Explain
import CipherRules.Log.Filter

/-!
# Commands — Runs

A run of the program: from its arguments, the environment and the file that it is about to what it
writes and to its exit code.
-/

namespace CipherRules.Command

/-- What a run finds. -/
structure Surroundings where
  /-- The directives for the log; there may be none. -/
  logSetting : Text
  /-- The variable with a rule string. -/
  ruleVariable : VariableValue
  /-- The file that the arguments name. -/
  file : Except FileFault Text

/-- What a run leaves behind. -/
structure Outcome where
  exitCode : Nat
  output : List Text
  /-- What is wrong with the directives for the log, a line each. -/
  settingComplaints : List Text
  /-- The lines of the log, without the time. -/
  log : List Text
  /-- The message of the failure, if there is one. -/
  complaint : Text

/-- A text whose lines but the first are indented like what is in front of it. -/
def indented (t : Text) : Text :=
  t.flatMap fun c => if c = '\n' then Text.of "\n    " else [c]

/-- The message of a failure: its outermost cause and, if there is another, that one. -/
def complaint : List Cause → Text
  | [] => []
  | [cause] => Text.of "Error: " ++ cause.message ++ ['\n']
  | outer :: inner :: _ =>
      Text.of "Error: " ++ outer.message ++ Text.of "\n\nCaused by:\n    "
        ++ indented inner.message ++ ['\n']

/-- The transcript of a request. -/
def Request.transcript (s : Surroundings) : Request → Transcript
  | .evaluate rule? otherNames => Command.evaluate s.ruleVariable rule? otherNames
  | .explain rule => Command.explain rule
  | .check file => Command.check file s.file

/-- What a transcript leaves behind, given the setting for the log and the verbosity. -/
def Transcript.outcome (setting : Text) (verbosity : Nat) (t : Transcript) : Outcome where
  exitCode := if t.succeeds then 0 else 1
  output := t.lines
  settingComplaints := Filter.complaints setting
  log := (t.events.filter (Filter.choose setting verbosity).shows).map Event.line
  complaint := Command.complaint t.causes

/-- What a run leaves behind that only prints lines. -/
def Outcome.ofLines (lines : List Text) : Outcome := ⟨0, lines, [], [], []⟩

/-- What a run leaves behind. -/
def run (s : Surroundings) (arguments : List Text) : Outcome :=
  match wish arguments with
  | .run request verbosity => (request.transcript s).outcome s.logSetting verbosity
  | .help page => .ofLines page.lines
  | .version => .ofLines [versionLine]
  | .refused => ⟨2, [], [], [], Text.join ['\n'] Page.overview.lines ++ ['\n']⟩

/-- Lines as a text, each with its end. -/
def linesText (lines : List Text) : Text := lines.flatMap fun l => l ++ ['\n']

end CipherRules.Command
