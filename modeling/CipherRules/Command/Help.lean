import CipherRules.Text

/-!
# Commands — Help

The pages of help, and what is printed when the program is asked for its version.
-/

namespace CipherRules.Command

/-- The pages of help. -/
inductive Page where
  | overview | evaluate | explain | check | help
  deriving DecidableEq

/-- The lines about the options that every command has. -/
def commonOptions : List Text :=
  [Text.of "  -v, --verbose...  Increase log verbosity (-v debug, -vv trace)",
   Text.of "  -h, --help        Print help"]

/-- The lines of a page. -/
def Page.lines : Page → List Text
  | .overview =>
      [Text.of "Cipher suite selection CLI",
       [],
       Text.of "Usage: suitesel [OPTIONS] <COMMAND>",
       [],
       Text.of "Commands:",
       Text.of "  eval     Evaluate a rule string and print the selected suites",
       Text.of "  explain  Show how each token of a rule string is interpreted",
       Text.of "  check    Validate a cipher policy file (TOML or YAML)",
       Text.of "  help     Print this message or the help of the given subcommand(s)",
       [],
       Text.of "Options:"]
        ++ commonOptions ++ [Text.of "  -V, --version     Print version"]
  | .evaluate =>
      [Text.of "Evaluate a rule string and print the selected suites",
       [],
       Text.of "Usage: suitesel eval [OPTIONS] [RULE]",
       [],
       Text.of "Arguments:",
       Text.of "  [RULE]  Rule string (defaults to $SUITESEL_CIPHER_SUITES)",
       [],
       Text.of "Options:",
       Text.of "      --openssl     Print OpenSSL names instead of standard names"]
        ++ commonOptions
  | .explain =>
      [Text.of "Show how each token of a rule string is interpreted",
       [],
       Text.of "Usage: suitesel explain [OPTIONS] <RULE>",
       [],
       Text.of "Arguments:",
       Text.of "  <RULE>  Rule string",
       [],
       Text.of "Options:"]
        ++ commonOptions
  | .check =>
      [Text.of "Validate a cipher policy file (TOML or YAML)",
       [],
       Text.of "Usage: suitesel check [OPTIONS] <FILE>",
       [],
       Text.of "Arguments:",
       Text.of "  <FILE>  Path to the policy file",
       [],
       Text.of "Options:"]
        ++ commonOptions
  | .help =>
      [Text.of "Print this message or the help of the given subcommand(s)",
       [],
       Text.of "Usage: suitesel help [COMMAND]...",
       [],
       Text.of "Arguments:",
       Text.of "  [COMMAND]...  Print help for the subcommand(s)"]

/-- The line with the version. -/
def versionLine : Text := .of "suitesel 0.1.0"

end CipherRules.Command
