import CipherRules.Policy.Format
import CipherRules.Proofs.Policy.Validity
import CipherRules.Proofs.Toml.Document
import CipherRules.Proofs.Yaml.Document
import Mathlib.Data.List.Nodup
import Mathlib.Data.List.Perm.Basic

/-!
# Policies — Documents read back

A policy that is written as a document is read back as it was, whatever its texts are, if only the
codec of the format can be relied on for texts (`Codec.Faithful`).  The codec is given the fields of
the policy and gives them back in whatever order; what is left is that they make the draft of the
policy, and that nothing of it is absent or there twice.

* `Draft.fillAll_fields`, `foldl_set_perm`: the entries of fields fill in a draft, and their order
  makes no difference.
* `ofDocument_of_holds`: a document with the fields of a policy gives the policy.
* `documents_round_trip`: either format, with its writer, its reader and its parser, and what
  becomes of the description.
* `Format.faithful_codec`: the codecs of the program can be relied on.
-/

namespace CipherRules.Policy

variable {p : Policy}

/-! ### What is written -/

/-- The keys under which fields stand. -/
def IsFieldKey (key : Text) : Prop := ∃ field : Field, field.key = key

/-- The keys and texts that are written for fields. -/
def entriesOf (fields : List (Field × Text)) : List (Text × Text) :=
  fields.map fun f => (f.1.key, f.2)

/-- A policy is written as its fields, of which none is absent. -/
theorem record_eq (p : Policy) : p.record = Codec.present (entriesOf p.fields) := by
  obtain ⟨name, suites, description⟩ := p
  cases description <;> rfl

/-- A policy has each field once. -/
theorem nodup_fields (p : Policy) : (p.fields.map (·.1)).Nodup := by
  obtain ⟨name, suites, description⟩ := p
  cases description <;> simp [fields]

theorem description_mem_fields_iff : Field.description ∈ p.fields.map (·.1) ↔
    p.description ≠ none := by
  obtain ⟨name, suites, description⟩ := p
  cases description <;> simp [fields]

theorem key_injective : Function.Injective Field.key := by
  intro f g h
  exact Option.some.inj ((Field.ofKey?_key f).symm.trans (h ▸ Field.ofKey?_key g))

theorem map_fst_entriesOf (fields : List (Field × Text)) :
    (entriesOf fields).map (·.1) = (fields.map (·.1)).map Field.key := by
  simp [entriesOf]

theorem isFieldKey_of_mem {fields : List (Field × Text)} :
    ∀ e ∈ entriesOf fields, IsFieldKey e.1 := by
  intro e he
  obtain ⟨f, -, rfl⟩ := List.mem_map.1 he
  exact ⟨f.1, rfl⟩

/-- The keys of a policy are different. -/
theorem nodup_keys (p : Policy) : ((entriesOf p.fields).map (·.1)).Nodup := by
  rw [map_fst_entriesOf]
  exact (nodup_fields p).map key_injective

/-! ### What is read -/

theorem Draft.fill_ofText (d : Draft) (field : Field) (t : Text) :
    d.fill field (.ofText t) = .ok (d.set field t) := by
  cases field <;> rfl

/-- **The entries of fields fill in the draft**, by induction on the fields, if none of them is
there twice. -/
theorem Draft.fillAll_fields {fields : List (Field × Text)} :
    ∀ {seen : List Field} {d : Draft}, (fields.map (·.1)).Nodup → (∀ f ∈ fields, f.1 ∉ seen) →
      d.fillAll seen (fields.map fun f => (f.1.key, .ofText f.2)) =
        .ok (fields.foldl (fun d f => d.set f.1 f.2) d) := by
  induction fields with
  | nil => intro seen d _ _; rfl
  | cons f fields ih =>
    intro seen d hnodup hseen
    obtain ⟨hother, hothers⟩ := List.nodup_cons.1 hnodup
    obtain ⟨hf, hfields⟩ := List.forall_mem_cons.1 hseen
    have hnew : seen.contains f.1 = false := by simpa using hf
    have hlater : ∀ g ∈ fields, g.1 ∉ f.1 :: seen := by
      intro g hg hmem
      rcases List.mem_cons.1 hmem with heq | hmem
      · exact hother (List.mem_map.2 ⟨g, hg, heq⟩)
      · exact hfields g hg hmem
    rw [List.map_cons, fillAll, Field.ofKey?_key]
    simp only [hnew, Bool.false_eq_true, if_false, fill_ofText]
    exact ih hothers hlater

theorem Draft.set_comm (d : Draft) {f g : Field} (h : f ≠ g) (t u : Text) :
    (d.set f t).set g u = (d.set g u).set f t := by
  cases f <;> cases g <;> first | rfl | exact absurd rfl h

/-- In which order fields are filled in makes no difference, if none of them is there twice. -/
theorem foldl_set_perm {fields others : List (Field × Text)} (h : others.Perm fields)
    (hnodup : (fields.map (·.1)).Nodup) (d : Draft) :
    others.foldl (fun d f => d.set f.1 f.2) d = fields.foldl (fun d f => d.set f.1 f.2) d := by
  refine h.foldl_eq' (fun f hf g hg d => ?_) d
  by_cases hfield : f.1 = g.1
  · obtain rfl : f = g :=
      List.inj_on_of_nodup_map hnodup (h.mem_iff.1 hf) (h.mem_iff.1 hg) hfield
    rfl
  · exact d.set_comm hfield f.2 g.2

/-- The fields of a policy make its draft, in whatever order a document has them. -/
theorem draftOf_of_holds {content : Codec.Content} (h : content.Holds (entriesOf p.fields)) :
    draftOf content = .ok p.draft := by
  have hperm : content.entries.Perm (p.fields.map fun f => (f.1.key, .ofText f.2)) := by
    have hmap := h.perm
    rwa [entriesOf, List.map_map] at hmap
  obtain ⟨fields, hentries, hfields⟩ :=
    (congrFun₂ (List.eq_map_comp_perm fun f : Field × Text => (f.1.key, Codec.Value.ofText f.2))
      content.entries p.fields).mpr hperm
  have hnodup : (fields.map (·.1)).Nodup := (hfields.map (·.1)).nodup_iff.2 (nodup_fields p)
  rw [draftOf, hentries, Draft.fillAll_fields hnodup fun _ _ => List.not_mem_nil,
    foldl_set_perm hfields (nodup_fields p), foldl_set_fields, h.isClosed]
  rfl

/-- A document with the fields of a policy gives the policy, if it has no fault. -/
theorem ofDocument_of_holds {codec : Codec} {document : Text}
    (h : (codec.read document).Holds (entriesOf p.fields)) :
    ofDocument codec document = p.accepted := by
  simp only [ofDocument, draftOf_of_holds h, complete_draft, h.isWhole, if_true]

theorem accepted_of_fault? (h : p.fault? = none) : p.accepted = .ok p :=
  accepted_eq_ok_iff.2 ⟨h, rfl⟩

/-! ### Both ways -/

section Codecs

variable {codecs : Format → Codec} {format : Format} {document : Text}

theorem write_eq_ok_iff : format.write codecs p = .ok document ↔
    (codecs format).write (Codec.present (entriesOf p.fields)) = .ok document := by
  rw [Format.write, toDocument, record_eq]
  cases (codecs format).write (Codec.present (entriesOf p.fields)) <;> simp [Except.mapError]

/-- What was written of a policy holds its fields. -/
theorem holds_of_write (hcodec : (codecs format).Faithful IsFieldKey)
    (h : format.write codecs p = .ok document) :
    ((codecs format).read document).Holds (entriesOf p.fields) :=
  hcodec.reads_back _ _ isFieldKey_of_mem (nodup_keys p) (write_eq_ok_iff.1 h)

/-- A policy is read back from the document that it was written as. -/
theorem ofDocument_of_write (hcodec : (codecs format).Faithful IsFieldKey) (hp : p.fault? = none)
    (h : format.write codecs p = .ok document) :
    ofDocument (codecs format) document = .ok p :=
  (ofDocument_of_holds (holds_of_write hcodec h)).trans (accepted_of_fault? hp)

/-- The parser of a format gives what its reader gives. -/
theorem parse_of_ofDocument (h : ofDocument (codecs format) document = .ok p) :
    format.parse codecs document = .ok p := by
  cases format with
  | toml =>
    rw [Format.parse, h]
    rfl
  | yaml =>
    rw [Format.parse, (converts_ofDocument (codecs .yaml)).rechecked_eq, h]
    rfl

/-- **Policy documents round trip.**  Whatever the codecs are, if only that of the format gives back
the texts that it has written: a policy without a fault, with any texts and any description or none,
is written as a document, and the reader and the parser of the format give it back.  There is an
entry for a description in the document exactly if there is a description in the policy, and no
other policy is written as this document. -/
theorem documents_round_trip (codecs : Format → Codec) (format : Format)
    (hcodec : (codecs format).Faithful IsFieldKey) (p : Policy) (h : p.fault? = none) :
    ∃ document, format.write codecs p = .ok document ∧
      ofDocument (codecs format) document = .ok p ∧
      format.parse codecs document = .ok p ∧
      (Field.description.key ∈ ((codecs format).read document).entries.map (·.1) ↔
        p.description ≠ none) ∧
      ∀ q : Policy, q.fault? = none → format.write codecs q = .ok document → q = p := by
  obtain ⟨document, hdocument⟩ := hcodec.exists_write isFieldKey_of_mem (nodup_keys p)
  have hwrite : format.write codecs p = .ok document := write_eq_ok_iff.2 hdocument
  have hread := ofDocument_of_write hcodec h hwrite
  refine ⟨document, hwrite, hread, parse_of_ofDocument hread, ?_, fun q hq hsame => ?_⟩
  · have hkeys := ((holds_of_write hcodec hwrite).perm.map (·.1)).mem_iff
      (a := Field.description.key)
    rw [hkeys, List.map_map, ← description_mem_fields_iff,
      ← List.mem_map_of_injective key_injective, ← map_fst_entriesOf]
    rfl
  · exact Except.ok.inj ((ofDocument_of_write hcodec hq hsame).symm.trans hread)

end Codecs

/-! ### The codecs of the program -/

theorem isBareKey_key (field : Field) : Toml.IsBareKey field.key := by
  cases field <;> exact ⟨by decide, List.all_eq_true.1 rfl⟩

theorem isPlainKey_key (field : Field) : Yaml.IsPlainKey field.key := by
  cases field <;> exact ⟨by decide, by decide, List.all_eq_true.1 rfl⟩

/-- **The codecs of the program can be relied on** for the texts of policies. -/
theorem Format.faithful_codec (format : Format) : format.codec.Faithful IsFieldKey := by
  cases format with
  | toml => exact Toml.faithful_codec.mono fun _ ⟨field, hfield⟩ => hfield ▸ isBareKey_key field
  | yaml => exact Yaml.faithful_codec.mono fun _ ⟨field, hfield⟩ => hfield ▸ isPlainKey_key field

/-- A policy named like the absence of a value, with quotes, marks and lines in its rule string, and
an empty description: it is read back from both of its documents, and without the description the
document would be another. -/
theorem documents_round_trip_null :
    ofToml (toToml ⟨.of "null", .of "!RC4: '-\"@ #\n\t:&", some []⟩) =
      .ok ⟨.of "null", .of "!RC4: '-\"@ #\n\t:&", some []⟩ ∧
    ofYaml (toYaml ⟨.of "null", .of "!RC4: '-\"@ #\n\t:&", some []⟩) =
      .ok ⟨.of "null", .of "!RC4: '-\"@ #\n\t:&", some []⟩ ∧
    toYaml ⟨.of "null", .of "!RC4: '-\"@ #\n\t:&", none⟩ ≠
      toYaml ⟨.of "null", .of "!RC4: '-\"@ #\n\t:&", some []⟩ := by
  obtain ⟨toml, htoml, hreadToml, -⟩ :=
    documents_round_trip Format.codec .toml (Format.faithful_codec .toml)
      ⟨.of "null", .of "!RC4: '-\"@ #\n\t:&", some []⟩ (by decide)
  obtain ⟨yaml, hyaml, hreadYaml, -, -, hsame⟩ :=
    documents_round_trip Format.codec .yaml (Format.faithful_codec .yaml)
      ⟨.of "null", .of "!RC4: '-\"@ #\n\t:&", some []⟩ (by decide)
  obtain rfl := Except.ok.inj ((write_toml _).symm.trans htoml)
  obtain rfl := Except.ok.inj ((write_yaml _).symm.trans hyaml)
  refine ⟨hreadToml, hreadYaml, fun h => ?_⟩
  have hequal := hsame ⟨.of "null", .of "!RC4: '-\"@ #\n\t:&", none⟩ (by decide)
    ((write_yaml _).trans (congrArg Except.ok h))
  cases hequal

end CipherRules.Policy
