import CipherRules.Proofs.Yaml.Reading
import CipherRules.Yaml.Codec

/-!
# YAML — Documents read back

A document of plain keys with texts is read into one mapping of these keys and texts, and nothing is
wrong with it (`Document.read_renderEntries`).  Of a text the document also tells whether it is
written without quotes; a text that is written so is not taken for its absence (`toValue_written`).
The codec can therefore be relied on for texts under plain keys (`faithful_codec`).

The goals of an entry are met by its four tokens (`Goal.meetAll_entry`); neither tags nor anchors
are in the way.
-/

namespace CipherRules.Yaml

/-- The parts of an entry: its key and its text. -/
def entryParts (e : Text × Text) : List Part :=
  [.scalar ⟨none, e.1, true⟩, .scalar ⟨none, e.2, isWrittenPlain e.2⟩]

/-- The events of an entry. -/
def entryEvents (e : Text × Text) : List Event :=
  [.scalar none none e.1 true, .scalar none none e.2 (isWrittenPlain e.2)]

/-- The four tokens of an entry meet the goals of its key and its value. -/
theorem Goal.meetAll_entry (handles : Handles) (bound : Nat) (e : Text × Text)
    (rest : List Token) :
    meetAll handles (bound + 4) [.blockKey] (entryTokens e ++ rest) =
      (entryEvents e ++ (meetAll handles bound [.blockKey] rest).1,
        (meetAll handles bound [.blockKey] rest).2) := rfl

/-- **The tokens of the entries meet the goal of a mapping**, by induction on the entries. -/
theorem Goal.meetAll_entries (handles : Handles) (entries : List (Text × Text))
    (rest : List Token) : ∀ {bound : Nat}, 4 * entries.length + 2 ≤ bound →
    meetAll handles bound [.blockKey] (entries.flatMap entryTokens ++ .blockEnd :: rest) =
      (entries.flatMap entryEvents ++ [.mappingEnd], some rest) := by
  induction entries with
  | nil =>
    intro bound hbound
    obtain ⟨n, rfl⟩ := Nat.exists_eq_add_of_le' hbound
    rfl
  | cons e entries ih =>
    intro bound hbound
    obtain ⟨n, rfl⟩ : ∃ n, bound = n + 4 := ⟨bound - 4, by simp at hbound; omega⟩
    rw [List.flatMap_cons, List.append_assoc, meetAll_entry, ih (by simp at hbound; omega)]
    simp

/-- The start of a block meets the goal of a value, and leaves that of a mapping. -/
theorem Goal.meetAll_blockMappingStart (handles : Handles) (bound : Nat) (rest : List Token) :
    meetAll handles (bound + 1) [.blockNode] (.blockMappingStart :: rest) =
      (.mappingStart none :: (meetAll handles bound [.blockKey] rest).1,
        (meetAll handles bound [.blockKey] rest).2) := rfl

/-- **The events of a document of texts**: one mapping, and nothing behind it. -/
theorem Events.ofTokens_entries (entries : List (Text × Text)) :
    Events.ofTokens (.blockMappingStart :: entries.flatMap entryTokens ++
        [.blockEnd, .endOfInput]) =
      ⟨.mappingStart none :: entries.flatMap entryEvents ++ [.mappingEnd], true⟩ := by
  have hlength : (entries.flatMap entryTokens).length = 4 * entries.length := by
    simp [entryTokens, Nat.mul_comm]
  obtain ⟨n, hn, hbound⟩ : ∃ n, goalsPerToken * ((Token.blockMappingStart ::
      (entries.flatMap entryTokens ++ [Token.blockEnd, .endOfInput])).length + 1) = n + 1 ∧
      4 * entries.length + 2 ≤ n := by
    simp only [goalsPerToken, List.length_cons, List.length_append, List.length_nil, hlength]
    exact ⟨6 * (4 * entries.length) + 23, by omega, by omega⟩
  show Events.ofContent Handles.standard
    (.blockMappingStart :: (entries.flatMap entryTokens ++ [.blockEnd, .endOfInput])) = _
  rw [Events.ofContent, hn, Goal.meetAll_blockMappingStart,
    Goal.meetAll_entries Handles.standard entries [.endOfInput] hbound]
  rfl

namespace Document

/-- Events without anchors are parts of the document. -/
theorem ofEvents_entry (isWhole : Bool) (e : Text × Text) (rest : List Event) :
    ofEvents isWhole [] [] (entryEvents e ++ rest) =
      { ofEvents isWhole [] [] rest with
        parts := entryParts e ++ (ofEvents isWhole [] [] rest).parts } := rfl

theorem ofEvents_entries (isWhole : Bool) (entries : List (Text × Text)) :
    ofEvents isWhole [] [] (entries.flatMap entryEvents ++ [.mappingEnd]) =
      ⟨entries.flatMap entryParts ++ [.mappingEnd], [], isWhole⟩ := by
  induction entries with
  | nil => rfl
  | cons e entries ih =>
    rw [List.flatMap_cons, List.append_assoc, ofEvents_entry, ih, List.flatMap_cons,
      List.append_assoc]

/-- **A document of plain keys with texts is read back.** -/
theorem read_renderEntries {e : Text × Text} {entries : List (Text × Text)}
    (hkeys : ∀ d ∈ e :: entries, IsPlainKey d.1) :
    read (renderEntries (e :: entries)) =
      ⟨.mappingStart :: (e :: entries).flatMap entryParts ++ [.mappingEnd], [], true⟩ := by
  rw [read, tokens_renderEntries hkeys, Events.ofTokens_entries]
  simp only [List.cons_append, ofEvents, partOf?, ofEvents_entries]

end Document

/-! ### The codec -/

/-- A text that is written plain is not taken for the absence of one. -/
theorem toValue_written (t : Text) :
    toValue (some ⟨none, t, isWrittenPlain t⟩) = .ofText t := by
  have hoptional : Scalar.optionalText? ⟨none, t, isWrittenPlain t⟩ = some (some t) := by
    cases hplain : isWrittenPlain t with
    | false => rfl
    | true =>
      obtain ⟨-, -, hmeaning⟩ := Style.of_eq_plain (beq_iff_eq.1 hplain)
      simp only [hasMeaning, Bool.or_eq_false_iff] at hmeaning
      obtain ⟨⟨⟨⟨⟨⟨⟨hempty, hnull⟩, -⟩, -⟩, -⟩, -⟩, -⟩, -⟩ := hmeaning
      show some (if List.isEmpty t || nullWords.contains t then none else some t) = _
      rw [hempty, hnull]
      rfl
  rw [toValue, hoptional]
  rfl

namespace Document

/-- The parts of entries, up to the end of the mapping, by induction on the entries. -/
theorem entries_flatMap (document : Document) (es : List (Text × Text)) : ∀ {bound : Nat},
    es.length < bound → document.entries bound (es.flatMap entryParts ++ [.mappingEnd]) =
      (es.map fun e => (e.1, .ofText e.2), true) := by
  induction es with
  | nil =>
    intro bound hbound
    obtain ⟨n, rfl⟩ := Nat.exists_eq_add_of_lt hbound
    rfl
  | cons e es ih =>
    intro bound hbound
    obtain ⟨n, rfl⟩ : ∃ n, bound = n + 1 := ⟨bound - 1, by omega⟩
    have hrest : document.entries n (es.flatMap entryParts ++ [.mappingEnd]) =
        (es.map fun e => (e.1, .ofText e.2), true) := ih (by simpa using hbound)
    simp [entryParts, entries, scalarAt?, skip, toValue_written, hrest]

theorem content_read_renderEntries {entries : List (Text × Text)}
    (hkeys : ∀ e ∈ entries, IsPlainKey e.1) :
    (read (renderEntries entries)).content =
      ⟨entries.map fun e => (e.1, .ofText e.2), true, true⟩ := by
  cases entries with
  | nil => rfl
  | cons e entries =>
    have hbound : (e :: entries).length <
        ((e :: entries).flatMap entryParts ++ [Part.mappingEnd]).length + 1 := by
      have hlength : ((e :: entries).flatMap entryParts).length = 2 * (e :: entries).length := by
        simp [entryParts, Nat.mul_comm]
        omega
      simp only [List.length_append, hlength]
      omega
    rw [read_renderEntries hkeys, content]
    simp only [List.cons_append, entries_flatMap _ _ hbound]

end Document

theorem renderPresent_present (entries : List (Text × Text)) :
    renderPresent (Codec.present entries) = renderEntries entries := by
  rw [renderPresent, Codec.present, List.flatMap_map]
  rfl

/-- **The codec of YAML can be relied on** for texts under plain keys. -/
theorem faithful_codec : codec.Faithful IsPlainKey where
  refuses_only _ _ _ hwrite := by cases hwrite
  reads_back entries document hkeys _ hwrite := by
    obtain rfl : renderEntries entries = document :=
      (renderPresent_present entries).symm.trans (Except.ok.inj hwrite)
    have hread : codec.read (renderEntries entries) =
        ⟨entries.map fun e => (e.1, .ofText e.2), true, true⟩ :=
      Document.content_read_renderEntries hkeys
    rw [hread]
    exact ⟨.refl _, rfl, rfl⟩

end CipherRules.Yaml
