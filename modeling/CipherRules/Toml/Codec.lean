import CipherRules.Codec
import CipherRules.Toml.Document
import CipherRules.Toml.Style

/-!
# TOML — The codec

The names of a document as the entries of one mapping.  Only a text gives a text.  A text that is
absent is not written at all, as the format has no form for it.
-/

namespace CipherRules.Toml

/-- What a path gives that stands for something. -/
def Use.toValue : Use → Codec.Value
  | .value (.text t) => .ofText t
  | _ => .unsuitable

/-- The keys of the whole document, the latest first.  A table that was implied before it got its
header is there twice, and gives no text either time. -/
def Names.entries (names : Names) : List (Text × Codec.Value) :=
  names.filterMap fun
    | ([key], use) => some (key, use.toValue)
    | _ => none

/-- The document of keys with texts; absent texts are left out. -/
def renderPresent (entries : List (Text × Option Text)) : Text :=
  renderEntries (entries.filterMap fun e => e.2.map (e.1, ·))

/-- The codec of TOML. -/
def codec : Codec where
  read t :=
    match read? t with
    | none => ⟨[], false, false⟩
    | some names => ⟨names.entries, true, true⟩
  write entries := .ok (renderPresent entries)

end CipherRules.Toml
