import CipherRules.Policy.Document
import CipherRules.Toml.Codec
import CipherRules.Yaml.Codec

/-!
# Policies — Formats

The formats of policy documents, each with its codec, its parser and its writer.  The format of a
file shows in its name alone: what ends in one of two extensions is YAML, everything else TOML.  The
parser of YAML looks at the policy that it has read once more before it gives it away.

Which codecs are at work is a parameter throughout; the program uses those of `Format.codec`.
-/

namespace CipherRules

namespace Policy

/-- The formats of policy documents. -/
inductive Format where
  | toml | yaml
  deriving DecidableEq

/-- The last part of a path that names something; the mark of the parent directory names nothing. -/
def fileName? (path : Text) : Option Text :=
  let parts := (Text.pieces '/' path).filter fun part => !part.isEmpty && part != ['.']
  match parts.getLast? with
  | some name => if name = ['.', '.'] then none else some name
  | none => none

/-- What follows the last point of a file name, unless nothing stands before that point. -/
def extension? (name : Text) : Option Text :=
  match (Text.pieces '.' name).reverse with
  | last :: first :: more => if first.isEmpty && more.isEmpty then none else some last
  | _ => none

/-- The format of the file at a path. -/
def Format.ofPath (path : Text) : Format :=
  match (fileName? path).bind extension? with
  | some e => if e = Text.of "yaml" ∨ e = Text.of "yml" then .yaml else .toml
  | none => .toml

/-- The codec of a format. -/
def Format.codec : Format → Codec
  | .toml => Toml.codec
  | .yaml => Yaml.codec

/-! ### Parsers -/

/-- Why a parser of documents gives no policy. -/
inductive ParserFault where
  /-- The document holds none. -/
  | document (fault : DocumentFault)
  /-- The policy in it, looked at once more, has a fault. -/
  | policy (fault : PolicyFault)
  deriving DecidableEq

/-- What a reader of documents gives, looked at once more. -/
def rechecked (read : Text → Except DocumentFault Policy) (document : Text) :
    Except ParserFault Policy :=
  match read document with
  | .error fault => .error (.document fault)
  | .ok p => p.checked.mapError .policy

/-- The policy in a document of a format. -/
def Format.parse (codecs : Format → Codec) : Format → Text → Except ParserFault Policy
  | .toml, document => (ofDocument (codecs .toml) document).mapError .document
  | .yaml, document => rechecked (ofDocument (codecs .yaml)) document

/-- The policy in a TOML document. -/
def ofToml : Text → Except DocumentFault Policy := ofDocument Toml.codec

/-- The policy in a YAML document. -/
def ofYaml : Text → Except DocumentFault Policy := ofDocument Yaml.codec

/-! ### Writers -/

/-- Why a policy is not written as a document: the codec of the format refuses, in these words. -/
structure WriterFault where
  format : Format
  reason : Text
  deriving DecidableEq

/-- The wording of the fault. -/
def WriterFault.message (fault : WriterFault) : Text :=
  match fault.format with
  | .toml => Text.of "Serialization error: " ++ fault.reason
  | .yaml => Text.of "YAML parsing failed: " ++ fault.reason

/-- The policy as a document of a format. -/
def Format.write (codecs : Format → Codec) (format : Format) (p : Policy) :
    Except WriterFault Text :=
  (p.toDocument (codecs format)).mapError fun reason => ⟨format, reason⟩

/-- The policy as a TOML document, which `Toml.codec` never refuses to write. -/
def toToml (p : Policy) : Text := Toml.renderPresent p.record

/-- The policy as a YAML document, which `Yaml.codec` never refuses to write. -/
def toYaml (p : Policy) : Text := Yaml.renderPresent p.record

theorem write_toml (p : Policy) : Format.toml.write Format.codec p = .ok p.toToml := rfl

theorem write_yaml (p : Policy) : Format.yaml.write Format.codec p = .ok p.toYaml := rfl

end Policy

end CipherRules
