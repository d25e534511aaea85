import CipherRules.Log.Directive

/-!
# Logs — Filters

Which events a log shows.  A filter is a list of directives, of which one decides about an event
(`Filter.deciding?`): of those about it the one to which the others give way.  An event that no
directive is about is not shown.
-/

namespace CipherRules

/-- The directives of a log. -/
abbrev Filter := List Directive

namespace Filter

/-- The words of a setting, each of which should be a directive. -/
def words (setting : Text) : List Text := (Text.pieces ',' setting).filter (!·.isEmpty)

/-- The directives of a setting; what is none is left out. -/
def ofSetting (setting : Text) : Filter :=
  (words setting).filterMap fun word => (Directive.read word).toOption

/-- A line about each word of a setting that is left out. -/
def complaints (setting : Text) : List Text :=
  (words setting).filterMap fun word =>
    match Directive.read word with
    | .ok _ => none
    | .error fault => some (Text.of "ignoring `" ++ word ++ Text.of "`: " ++ fault.message)

/-- What is shown without any other instruction, by the number of times more detail was asked
for. -/
def ofVerbosity : Nat → Filter
  | 0 => [.ofLevel .warn]
  | 1 => [.ofLevel .debug]
  | _ => [.ofLevel .trace]

/-- The filter of a run: the directives of a setting, if it has any. -/
def choose (setting : Text) (verbosity : Nat) : Filter :=
  match ofSetting setting with
  | []     => ofVerbosity verbosity
  | filter => filter

/-- The directive that decides about an event. -/
def deciding? (filter : Filter) (e : Event) : Option Directive :=
  (filter.filter (·.isAbout e)).foldl
    (fun best? d => match best? with
      | some best => if best.givesWayTo d then some d else some best
      | none => some d)
    none

/-- The level up to which events like this one are shown. -/
def levelFor (filter : Filter) (e : Event) : Level :=
  match filter.deciding? e with
  | some d => d.level
  | none => .off

/-- Whether an event is shown. -/
def shows (filter : Filter) (e : Event) : Bool := e.level.rank ≤ (filter.levelFor e).rank

end Filter

end CipherRules
