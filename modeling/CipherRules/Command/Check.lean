import CipherRules.Catalog.Builtin
import CipherRules.Command.Transcript

/-!
# Commands — Checking a policy file

Reads a policy from a file and prints what it selects from the builtin catalog.  Two things are
worth a warning: weak suites among the selected, and tokens that name suites the catalog does not
have.
-/

namespace CipherRules.Command

/-- A line with a mark in front. -/
def marked (mark content : Text) : Text := Text.of "  " ++ mark ++ [' '] ++ content

/-- The number of weak suites among those with these names. -/
def weakCount (names : List Text) : Nat :=
  (names.filterMap Catalog.builtin.lookup?).countP (·.strength.isWeak)

/-- The number of tokens of a rule string of which no rule has come. -/
def ignoredCount (rule : Text) (rules : List Rule) : Nat :=
  (Text.pieces RuleString.separator rule).length - rules.length

/-- The warnings about a policy. -/
def warnings (weak ignored : Nat) : List Text :=
  (if 0 < weak then [Text.ofNat weak ++ Text.of " weak suite(s) selected"] else [])
    ++ (if 0 < ignored then
          [Text.ofNat ignored ++ Text.of " token(s) name unknown suites and were ignored"]
        else [])

/-- The last line about a policy, given the number of warnings. -/
def conclusion (count : Nat) : Text :=
  if count = 0 then goodMark ++ Text.of " Policy is valid!"
  else warningMark ++ Text.of " Policy is valid with " ++ Text.ofNat count ++ Text.of " warning(s)"

/-- The lines about the texts of a policy. -/
def policyLines (p : Policy) : List Text :=
  marked goodMark (Text.of "Policy name: " ++ p.name)
    :: match p.description with
       | some d => [marked goodMark (Text.of "Description: " ++ d)]
       | none => []

/-- Checks a policy. -/
def checkPolicy (p : Policy) : Transcript :=
  let selected := p.selection .builtin
  match selected.value with
  | .error e =>
      ⟨policyLines p, opened :: selected.events,
        [.failed (Text.of "Policy '" ++ p.name ++ Text.of "' has an unusable rule string"),
         .selection e]⟩
  | .ok s =>
      let lines := policyLines p ++
        [marked goodMark (Text.of "Rule: " ++ s.rule),
         marked goodMark (Text.of "Suites: " ++ Text.ofNat s.size)]
      let parsed := RuleString.parse .builtin p.suites
      let events := opened :: (selected.events ++ parsed.events)
      match parsed.value with
      | .error e => ⟨lines, events, [.selection e]⟩
      | .ok rules =>
          let found := warnings (weakCount s.names) (ignoredCount p.suites rules)
          ⟨lines ++ found.map (marked warningMark) ++ [[], conclusion found.length], events, []⟩

/-- Checks the policy in a file, which is read by one of these codecs. -/
def checkFile (codecs : Policy.Format → Codec) (file : Text) (content : Except FileFault Text) :
    Transcript :=
  let heading := Text.of "Checking policy: " ++ file
  match content with
  | .error fault =>
      ⟨[heading], [], [.failed (Text.of "Failed to read file"), .file fault]⟩
  | .ok t =>
      let format := Policy.Format.ofPath file
      let reading := Event.readingPolicy file (format = .yaml) (Text.byteLength t)
      match format.parse codecs t with
      | .error fault =>
          ⟨[heading], [reading],
            [.failed (Text.of "Policy parsing error"), .ofParser format fault]⟩
      | .ok p =>
          let rest := checkPolicy p
          ⟨heading :: rest.lines, reading :: rest.events, rest.causes⟩

/-- Checks the policy in a file with the codecs of the program. -/
def check : Text → Except FileFault Text → Transcript := checkFile Policy.Format.codec

end CipherRules.Command
