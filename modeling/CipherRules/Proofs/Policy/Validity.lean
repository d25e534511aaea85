import CipherRules.Policy.Format
import CipherRules.Proofs.Selection.RuleString

/-!
# Policies — Validity

No policy with a fault can be obtained.  What a policy without one looks like is `Valid`, and which
fault a name and a rule string have is `FirstFault`.  A reader of documents is only asked to make
its policy by the conversion that drafts go through (`Converts`); `Obtained` is then whatever the
operations on policies and such readers give, in any sequence.

* `fault?_eq_none_iff`, `fault?_eq_some_iff`: the first fault, condition by condition.
* `fault?_of_obtained`: no operation gives a policy with a fault.
* `Converts.rechecked_eq`: the second look of the YAML parser finds nothing.
* `obtained_valid`: the whole of it.
-/

namespace CipherRules

open Text (isBlank byteLength allBlank)

/-- A rule string that is no longer than it may be is not refused for its length. -/
theorem Selection.value_ofRuleString_ne_ruleStringTooLong {catalog : Catalog} {input : Text}
    (h : byteLength input ≤ Limits.ruleStringBytes) (n : Nat) :
    (ofRuleString catalog input).value ≠ .error (.ruleStringTooLong n) := by
  intro hlong
  cases hparse : (RuleString.parse catalog input).value with
  | error e =>
    obtain rfl : e = .ruleStringTooLong n := by
      rw [value_ofRuleString_of_error hparse] at hlong
      exact Except.error.inj hlong
    have hfault := RuleString.value_parse_eq_error_iff.1 hparse
    rw [RuleString.fault?, if_neg (Nat.not_lt.2 h)] at hfault
    split at hfault
    · cases hfault
    · obtain ⟨token, -, htoken⟩ := List.exists_of_findSome?_eq_some hfault
      obtain ⟨fault, -, he⟩ := RuleString.Token.fault?_eq_some_iff.1 htoken
      cases he
  | ok rules =>
    rw [value_ofRuleString_of_parse hparse] at hlong
    split at hlong <;> cases hlong

namespace Policy

variable {p : Policy} {name suites : Text}

/-! ### The conditions -/

/-- A name and a rule string that make a policy. -/
structure Valid (name suites : Text) : Prop where
  name_le : byteLength name ≤ 128
  suites_le : byteLength suites ≤ 4096
  name_visible : ∃ c ∈ name, isBlank c = false
  suites_visible : ∃ c ∈ suites, isBlank c = false

/-- The first fault of a name and a rule string: those before it do not apply. -/
inductive FirstFault (name suites : Text) : PolicyFault → Prop where
  | nameTooLong (h : 128 < byteLength name) :
      FirstFault name suites (.nameTooLong (byteLength name))
  | blankName (hname : byteLength name ≤ 128) (h : ∀ c ∈ name, isBlank c = true) :
      FirstFault name suites .blankName
  | blankSuites (hname : byteLength name ≤ 128) (hvisible : ∃ c ∈ name, isBlank c = false)
      (h : ∀ c ∈ suites, isBlank c = true) : FirstFault name suites .blankSuites
  | suitesTooLong (hname : byteLength name ≤ 128) (hvisible : ∃ c ∈ name, isBlank c = false)
      (hsuites : ∃ c ∈ suites, isBlank c = false) (h : 4096 < byteLength suites) :
      FirstFault name suites (.suitesTooLong (byteLength suites))

theorem allBlank_eq_true_iff {t : Text} : allBlank t = true ↔ ∀ c ∈ t, isBlank c = true :=
  List.all_eq_true

theorem allBlank_eq_false_iff {t : Text} : allBlank t = false ↔ ∃ c ∈ t, isBlank c = false := by
  simp [allBlank]

/-- A policy has no fault exactly if its name and its rule string make one. -/
theorem fault?_eq_none_iff : p.fault? = none ↔ Valid p.name p.suites := by
  constructor
  · intro h
    rw [fault?, Limits.policyNameBytes, Limits.ruleStringBytes] at h
    split_ifs at h with hname hblank hsuites hlong
    exact ⟨Nat.not_lt.1 hname, Nat.not_lt.1 hlong,
      allBlank_eq_false_iff.1 (Bool.eq_false_iff.2 hblank),
      allBlank_eq_false_iff.1 (Bool.eq_false_iff.2 hsuites)⟩
  · intro h
    rw [fault?, Limits.policyNameBytes, Limits.ruleStringBytes, if_neg (Nat.not_lt.2 h.name_le),
      if_neg (Bool.eq_false_iff.1 (allBlank_eq_false_iff.2 h.name_visible)),
      if_neg (Bool.eq_false_iff.1 (allBlank_eq_false_iff.2 h.suites_visible)),
      if_neg (Nat.not_lt.2 h.suites_le)]

/-- The fault of a policy is the first one of its name and rule string. -/
theorem fault?_eq_some_iff {fault : PolicyFault} :
    p.fault? = some fault ↔ FirstFault p.name p.suites fault := by
  constructor
  · intro h
    rw [fault?, Limits.policyNameBytes, Limits.ruleStringBytes] at h
    split_ifs at h with hname hblank hsuites hlong
    all_goals obtain rfl := Option.some.inj h
    · exact .nameTooLong hname
    · exact .blankName (Nat.not_lt.1 hname) (allBlank_eq_true_iff.1 hblank)
    · exact .blankSuites (Nat.not_lt.1 hname)
        (allBlank_eq_false_iff.1 (Bool.eq_false_iff.2 hblank)) (allBlank_eq_true_iff.1 hsuites)
    · exact .suitesTooLong (Nat.not_lt.1 hname)
        (allBlank_eq_false_iff.1 (Bool.eq_false_iff.2 hblank))
        (allBlank_eq_false_iff.1 (Bool.eq_false_iff.2 hsuites)) hlong
  · rintro (h | ⟨hname, h⟩ | ⟨hname, hvisible, h⟩ | ⟨hname, hvisible, hsuites, h⟩)
    · rw [fault?, Limits.policyNameBytes, if_pos h]
    · rw [fault?, Limits.policyNameBytes, if_neg (Nat.not_lt.2 hname),
        if_pos (allBlank_eq_true_iff.2 h)]
    · rw [fault?, Limits.policyNameBytes, if_neg (Nat.not_lt.2 hname),
        if_neg (Bool.eq_false_iff.1 (allBlank_eq_false_iff.2 hvisible)),
        if_pos (allBlank_eq_true_iff.2 h)]
    · rw [fault?, Limits.policyNameBytes, Limits.ruleStringBytes, if_neg (Nat.not_lt.2 hname),
        if_neg (Bool.eq_false_iff.1 (allBlank_eq_false_iff.2 hvisible)),
        if_neg (Bool.eq_false_iff.1 (allBlank_eq_false_iff.2 hsuites)), if_pos h]

theorem checked_eq_error_iff {fault : PolicyFault} :
    p.checked = .error fault ↔ p.fault? = some fault := by
  unfold checked
  split <;> simp_all

/-! ### Where policies come from -/

/-- The policies of a reader have gone through the conversion of drafts. -/
def Converts (read : Text → Except DocumentFault Policy) : Prop :=
  ∀ document p, read document = .ok p → ∃ raw : Policy, raw.accepted = .ok p

/-- Whatever the codec of a format is, policies are read through the conversion. -/
theorem converts_ofDocument (codec : Codec) : Converts (ofDocument codec) := by
  intro document p h
  simp only [ofDocument] at h
  split at h
  · cases h
  · split at h
    · cases h
    · split at h
      · exact ⟨_, h⟩
      · cases h

/-- The policies that the operations give, in any sequence and with any inputs: construction,
descriptions, the readers of both formats and the parsers made of them. -/
inductive Obtained (readToml readYaml : Text → Except DocumentFault Policy) : Policy → Prop where
  | made {name suites : Text} {p : Policy} (h : ofRule? name suites = .ok p) :
      Obtained readToml readYaml p
  | described {p : Policy} (h : Obtained readToml readYaml p) (description : Text) :
      Obtained readToml readYaml (p.withDescription description)
  | readToml {document : Text} {p : Policy} (h : readToml document = .ok p) :
      Obtained readToml readYaml p
  | readYaml {document : Text} {p : Policy} (h : readYaml document = .ok p) :
      Obtained readToml readYaml p
  | parsedToml {document : Text} {p : Policy}
      (h : (readToml document).mapError ParserFault.document = .ok p) : Obtained readToml readYaml p
  | parsedYaml {document : Text} {p : Policy} (h : rechecked readYaml document = .ok p) :
      Obtained readToml readYaml p

section Readers

variable {read readToml readYaml : Text → Except DocumentFault Policy} {document : Text}

theorem eq_ok_of_mapError {outcome : Except DocumentFault Policy}
    (h : outcome.mapError ParserFault.document = .ok p) : outcome = .ok p := by
  cases outcome with
  | error fault => cases h
  | ok q =>
    cases h
    rfl

theorem Converts.fault? (hread : Converts read) (h : read document = .ok p) :
    p.fault? = none := by
  obtain ⟨raw, hraw⟩ := hread document p h
  obtain ⟨hfault, rfl⟩ := accepted_eq_ok_iff.1 hraw
  exact hfault

/-- **The second look at a policy that was read finds nothing.** -/
theorem Converts.rechecked_eq (hread : Converts read) (document : Text) :
    rechecked read document = (read document).mapError .document := by
  rw [rechecked]
  cases h : read document with
  | error fault => rfl
  | ok p =>
    have hchecked : p.checked = .ok p := checked_eq_ok_iff.2 ⟨hread.fault? h, rfl⟩
    simp only [hchecked]
    rfl

/-- **No operation gives a policy with a fault.** -/
theorem fault?_of_obtained (htoml : Converts readToml) (hyaml : Converts readYaml)
    (h : Obtained readToml readYaml p) : p.fault? = none := by
  induction h with
  | made h =>
    obtain ⟨hfault, rfl⟩ := checked_eq_ok_iff.1 h
    exact hfault
  | described _ description ih => rw [fault?_withDescription, ih]
  | readToml h => exact htoml.fault? h
  | readYaml h => exact hyaml.fault? h
  | parsedToml h => exact htoml.fault? (eq_ok_of_mapError h)
  | parsedYaml h =>
    rw [hyaml.rechecked_eq] at h
    exact hyaml.fault? (eq_ok_of_mapError h)

/-- A rule string that is not too long for a policy is not too long for a selection. -/
theorem value_selection_ne_ruleStringTooLong (h : p.fault? = none) (catalog : Catalog) (n : Nat) :
    (p.selection catalog).value ≠ .error (.ruleStringTooLong n) :=
  Selection.value_ofRuleString_ne_ruleStringTooLong (fault?_eq_none_iff.1 h).suites_le n

/-- **No policy without validity.**  Whatever readers of documents there are, if only they make
their policies by the conversion, as those of any codec do: a policy that can be obtained has no
fault, and no selection from it fails for the length of its rule string.  Construction gives a
policy for every valid pair, and otherwise the first fault of the pair.  The second look of the YAML
parser never is what refuses a document. -/
theorem obtained_valid (htoml : Converts readToml) (hyaml : Converts readYaml) :
    (∀ codec : Codec, Converts (ofDocument codec)) ∧
    (∀ p, Obtained readToml readYaml p → p.checked = .ok p ∧ Valid p.name p.suites ∧
      ∀ catalog n, (p.selection catalog).value ≠ .error (.ruleStringTooLong n)) ∧
    (∀ name suites p, ofRule? name suites = .ok p ↔
      Valid name suites ∧ p = ⟨name, suites, none⟩) ∧
    (∀ name suites fault, ofRule? name suites = .error fault ↔ FirstFault name suites fault) ∧
    ∀ document fault, rechecked readYaml document = .error fault →
      ∃ f, readYaml document = .error f ∧ fault = .document f := by
  refine ⟨converts_ofDocument, fun p h => ?_, fun name suites p => ?_,
    fun name suites fault => ?_, fun document fault h => ?_⟩
  · have hfault := fault?_of_obtained htoml hyaml h
    exact ⟨checked_eq_ok_iff.2 ⟨hfault, rfl⟩, fault?_eq_none_iff.1 hfault,
      value_selection_ne_ruleStringTooLong hfault⟩
  · rw [ofRule?, checked_eq_ok_iff, fault?_eq_none_iff, eq_comm (a := p)]
  · rw [ofRule?, checked_eq_error_iff, fault?_eq_some_iff]
  · rw [hyaml.rechecked_eq] at h
    cases hread : readYaml document with
    | ok p =>
      rw [hread] at h
      cases h
    | error f =>
      rw [hread] at h
      exact ⟨f, rfl, (Except.error.inj h).symm⟩

/-- A policy from a YAML document that is then described, and a name of blanks of more than one
byte. -/
theorem obtained_valid_described :
    Valid (.of "old") (.of "RC4 : @STRENGTH") ∧
    ofRule? [Char.ofNat 0x2003, Char.ofNat 0xA0] (.of "") = .error .blankName ∧
    ∃ f, ofYaml (.of "name: old\nsuites: ' '") = .error f := by
  obtain ⟨-, hobtained, -, herror, hyaml⟩ :=
    obtained_valid (converts_ofDocument Toml.codec) (converts_ofDocument Yaml.codec)
  have hread : ofYaml (.of "suites: 'RC4 : @STRENGTH'\nname: old") =
      .ok ⟨.of "old", .of "RC4 : @STRENGTH", none⟩ := by decide +kernel
  have hrefused : rechecked ofYaml (.of "name: old\nsuites: ' '") =
      .error (.document (.invalid .blankSuites)) := by decide +kernel
  obtain ⟨-, hvalid, -⟩ := hobtained _ (.described (.readYaml hread) (.of "for old hosts"))
  obtain ⟨f, hf, -⟩ := hyaml _ _ hrefused
  exact ⟨hvalid, (herror _ _ _).2 (.blankName (by decide) (List.all_eq_true.1 rfl)), f, hf⟩

end Readers

end Policy

end CipherRules
