import CipherRules.Text

/-!
# Codecs

What reads and writes the documents of a format.  A codec reads a document as the entries of one
mapping (`Codec.Content`), and writes keys with texts as a document; a text may also be absent, and
it is for the format to say what is written then.  Either way it may fail: a document may be read
only in part, and writing may be refused.

A codec carries no law.  What is asked of one is `Codec.Faithful`: nothing is refused without a
reason, and what was written for texts is read back as these texts.
-/

namespace CipherRules

/-- A value in a document, by what it gives where a text is asked for, and where a text is that may
be absent; nothing, if it is of the wrong kind for that. -/
structure Codec.Value where
  text? : Option Text
  optionalText? : Option (Option Text)
  deriving DecidableEq

/-- A document as far as it could be read. -/
structure Codec.Content where
  /-- The keys with their values, in the order of the document. -/
  entries : List (Text × Codec.Value)
  /-- Whether the mapping ends behind these entries; if it does not, the next one is broken. -/
  isClosed : Bool
  /-- Whether there is nothing wrong behind the mapping. -/
  isWhole : Bool
  deriving DecidableEq

/-- A reader and a writer of documents. -/
structure Codec where
  read : Text → Codec.Content
  /-- The document of keys with texts, or in what words it was refused. -/
  write : List (Text × Option Text) → Except Text Text

namespace Codec

/-- The value that a text is, not to be taken for anything else. -/
def Value.ofText (t : Text) : Value := ⟨some t, some (some t)⟩

/-- A value of the wrong kind. -/
def Value.unsuitable : Value := ⟨none, none⟩

/-- Keys with texts, none of which is absent. -/
def present (entries : List (Text × Text)) : List (Text × Option Text) :=
  entries.map fun e => (e.1, some e.2)

/-! ### What is asked of a codec -/

/-- The document holds texts under their keys, in whatever order, and nothing else. -/
structure Content.Holds (content : Content) (entries : List (Text × Text)) : Prop where
  perm : content.entries.Perm (entries.map fun e => (e.1, .ofText e.2))
  isClosed : content.isClosed = true
  isWhole : content.isWhole = true

/-- A codec that can be relied on for texts under keys of some kind. -/
structure Faithful (codec : Codec) (IsKey : Text → Prop) : Prop where
  /-- Where writing is refused, a text is absent or a key is there twice. -/
  refuses_only : ∀ (entries : List (Text × Option Text)) (words : Text),
    (∀ e ∈ entries, IsKey e.1) → codec.write entries = .error words →
    (∃ e ∈ entries, e.2 = none) ∨ ¬ (entries.map (·.1)).Nodup
  /-- What was written for texts is read back as these texts. -/
  reads_back : ∀ (entries : List (Text × Text)) (document : Text), (∀ e ∈ entries, IsKey e.1) →
    (entries.map (·.1)).Nodup → codec.write (present entries) = .ok document →
    (codec.read document).Holds entries

namespace Faithful

variable {codec : Codec} {IsKey IsOther : Text → Prop}

/-- Texts under different keys can be written. -/
theorem exists_write (h : codec.Faithful IsKey) {entries : List (Text × Text)}
    (hkeys : ∀ e ∈ entries, IsKey e.1) (hnodup : (entries.map (·.1)).Nodup) :
    ∃ document, codec.write (present entries) = .ok document := by
  cases hwrite : codec.write (present entries) with
  | ok document => exact ⟨document, rfl⟩
  | error words =>
    have hkeys' : ∀ e ∈ present entries, IsKey e.1 := by
      intro e he
      obtain ⟨f, hf, rfl⟩ := List.mem_map.1 he
      exact hkeys f hf
    rcases h.refuses_only _ words hkeys' hwrite with ⟨e, he, habsent⟩ | htwice
    · obtain ⟨f, -, rfl⟩ := List.mem_map.1 he
      cases habsent
    · rw [present, List.map_map] at htwice
      exact absurd hnodup htwice

/-- A codec that can be relied on for some keys can be for fewer. -/
theorem mono (h : codec.Faithful IsKey) (hkey : ∀ key, IsOther key → IsKey key) :
    codec.Faithful IsOther where
  refuses_only entries words hkeys := h.refuses_only entries words fun e he => hkey _ (hkeys e he)
  reads_back entries document hkeys := h.reads_back entries document fun e he =>
    hkey _ (hkeys e he)

end Faithful

end Codec

end CipherRules
