import CipherRules.Event
import CipherRules.Text.Quoted

/-!
# Logs

How events appear in a log: the level and the target of an event, its wording, and its fields in
order.  `Event.line` is the whole line, without the time.
-/

namespace CipherRules

/-- How much a reader of the log has to care, from not at all to the finest detail. -/
inductive Level where
  | off | error | warn | info | debug | trace
  deriving DecidableEq

namespace Level

/-- The levels, the least talkative first. -/
def all : List Level := [.off, .error, .warn, .info, .debug, .trace]

/-- The place of a level among the levels. -/
def rank (l : Level) : Nat := all.idxOf l

/-- The level in capitals. -/
def label : Level → Text
  | .off   => .of "OFF"
  | .error => .of "ERROR"
  | .warn  => .of "WARN"
  | .info  => .of "INFO"
  | .debug => .of "DEBUG"
  | .trace => .of "TRACE"

end Level

/-- The value of a field. -/
inductive FieldValue where
  /-- A text that stands in quotes. -/
  | quoted (t : Text)
  /-- A text that stands as it is. -/
  | plain (t : Text)
  | number (n : Nat)
  | truth (b : Bool)
  deriving DecidableEq

/-- The value as it stands on a line. -/
def FieldValue.text : FieldValue → Text
  | .quoted t => Text.quote t
  | .plain t  => t
  | .number n => Text.ofNat n
  | .truth b  => if b then .of "true" else .of "false"

namespace Event

/-- The level of an event; what happens once per rule is the finest detail. -/
def level : Event → Level
  | .appliedRule _ _ => .trace
  | _                => .debug

/-- The part of the program that reports the event. -/
def target : Event → Text
  | .ignoredToken _ _                  => .of "core_suites::rule"
  | .skippedRule _ | .appliedRule _ _  => .of "core_suites::builder"
  | .readVariable _ _                  => .of "app_utils::env"
  | .openedCatalog _                   => .of "app_utils::database"
  | .readingPolicy _ _ _               => .of "suitesel::commands::policy"

/-- The wording of an event. -/
def message : Event → Text
  | .ignoredToken _ _    => .of "ignoring rule token naming an unknown cipher suite"
  | .skippedRule _       => .of "skipping vacuous rule"
  | .appliedRule _ _     => .of "applied rule"
  | .readVariable _ _    => .of "read cipher rule string from environment"
  | .openedCatalog _     => .of "initialised builtin mechanism database"
  | .readingPolicy _ _ _ => .of "parsing policy file"

/-- The fields of an event, by name. -/
def fields : Event → List (Text × FieldValue)
  | .ignoredToken token position =>
      [(.of "token", .quoted token), (.of "position", .number position)]
  | .skippedRule rule            => [(.of "rule", .plain rule)]
  | .appliedRule rule selected   => [(.of "rule", .plain rule), (.of "selected", .number selected)]
  | .readVariable variableName rule =>
      [(.of "var", .quoted variableName), (.of "rule", .plain rule)]
  | .openedCatalog suites        => [(.of "entries", .number suites)]
  | .readingPolicy file isYaml bytes =>
      [(.of "file", .quoted file), (.of "is_yaml", .truth isYaml), (.of "bytes", .number bytes)]

/-- The line of an event: its level in five columns, its target, wording and fields. -/
def line (e : Event) : Text :=
  Text.alignRight 5 e.level.label ++ [' '] ++ e.target ++ Text.of ": " ++ e.message
    ++ e.fields.flatMap fun f => [' '] ++ f.1 ++ ['='] ++ f.2.text

end Event

end CipherRules
