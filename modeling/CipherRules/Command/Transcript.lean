import CipherRules.Catalog.Builtin
import CipherRules.Environment
import CipherRules.Policy.Format

/-!
# Commands — Transcripts

What a command does: the lines that it prints, the events that it reports, and, if it fails, the
causes of its failure.
-/

namespace CipherRules

namespace Command

/-- Why a file cannot be read. -/
inductive FileFault where
  | notFound
  /-- The bytes of the file are no text. -/
  | notText
  /-- Another reason, in the words of the system. -/
  | other (reason : Text)
  deriving DecidableEq

/-- The wording of the fault. -/
def FileFault.message : FileFault → Text
  | .notFound => .of "No such file or directory (os error 2)"
  | .notText => .of "stream did not contain valid UTF-8"
  | .other reason => reason

/-- A cause of a failure. -/
inductive Cause where
  /-- What could not be done. -/
  | failed (action : Text)
  | file (fault : FileFault)
  | document (format : Policy.Format) (fault : Policy.DocumentFault)
  | policy (fault : PolicyFault)
  | selection (error : SelectionError)
  | environment (error : EnvironmentError)
  deriving DecidableEq

/-- The wording of a cause. -/
def Cause.message : Cause → Text
  | .failed action => action
  | .file fault => fault.message
  | .document format fault =>
      (match format with
       | .toml => Text.of "TOML parsing error: "
       | .yaml => Text.of "Serialization error: YAML parse error: ")
        ++ fault.message?.getD (Text.of "not a policy document")
  | .policy fault => fault.message
  | .selection error => error.message
  | .environment error => error.message

/-- The cause of a failure to parse a document of a format. -/
def Cause.ofParser (format : Policy.Format) : Policy.ParserFault → Cause
  | .document fault => .document format fault
  | .policy fault => .policy fault

/-- The course of a command. -/
structure Transcript where
  lines : List Text
  events : List Event
  /-- The causes of the failure, the outermost first; there are none if the command succeeds. -/
  causes : List Cause
  deriving DecidableEq

namespace Transcript

/-- Whether the command succeeds. -/
def succeeds (t : Transcript) : Bool := t.causes.isEmpty

/-- The transcript with more events in front. -/
def after (events : List Event) (t : Transcript) : Transcript :=
  { t with events := events ++ t.events }

end Transcript

/-- The mark of what is as it should be. -/
def goodMark : Text := .of "✓"

/-- The mark of what deserves attention. -/
def warningMark : Text := .of "⚠"

/-- The mark of what has failed. -/
def badMark : Text := .of "✗"

/-- The event of the first use of the builtin catalog. -/
def opened : Event := .openedCatalog Catalog.builtin.size

end Command

end CipherRules
