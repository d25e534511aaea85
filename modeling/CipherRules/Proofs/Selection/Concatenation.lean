import CipherRules.Catalog.Builtin
import CipherRules.Proofs.RuleString.Concatenation
import CipherRules.Proofs.Selection.RuleString
import CipherRules.Selection.Builder

/-!
# Selections — Concatenation

A rule string may be given in two parts, to a builder that takes one after the other, or as one with
a separator between the parts: `parse_concatenation`.

* `Parts.value_parse_of_left`, `Parts.value_parse_of_right`: the whole is refused for what its first
  part is refused for, then for what its second part is, so many bytes further on.
* `value_parse_parse`: a builder that takes both parts has the rules of the whole.
-/

namespace CipherRules.Selection

open RuleString (parse separator tokens parse_append_separator)
open Text (byteLength)

variable {catalog : Catalog} {s t : Text} {rules others : List Rule}

/-- The parts of a rule string that is within the limits. -/
structure Parts (s t : Text) : Prop where
  bytes : byteLength (s ++ separator :: t) ≤ Limits.ruleStringBytes
  count : (tokens (s ++ separator :: t)).length ≤ Limits.rules

namespace Parts

/-- The reading of the whole, part by part. -/
theorem parse_eq (h : Parts s t) : parse catalog (s ++ separator :: t) =
    (parse catalog s).append ((parse catalog t).shift (byteLength s + 1)) :=
  parse_append_separator h.bytes (RuleString.length_tokens_eq_count _ ▸ h.count)

/-- Both parts are within the limits on their own. -/
theorem within_right (h : Parts s t) :
    byteLength t ≤ Limits.ruleStringBytes ∧ t.count ':' + 1 ≤ Limits.rules := by
  have hbytes := h.bytes
  have hcount := h.count
  rw [RuleString.length_tokens_eq_count] at hcount
  simp only [Text.byteLength_append, Text.byteLength_cons, List.count_append] at hbytes hcount
  have hcons : (separator :: t).count ':' = t.count ':' + 1 := List.count_cons_self
  exact ⟨by omega, by omega⟩

/-- The rules of the first part, then those of the second. -/
theorem value_parse_of_both (h : Parts s t) (hs : (parse catalog s).value = .ok rules)
    (ht : (parse catalog t).value = .ok others) :
    (parse catalog (s ++ separator :: t)).value = .ok (rules ++ others) := by
  rw [h.parse_eq, Traced.append_of_ok hs]
  simp only [Traced.shift, ht]
  rfl

/-- What the first part is refused for, the whole is. -/
theorem value_parse_of_left {e : SelectionError} (h : Parts s t)
    (hs : (parse catalog s).value = .error e) :
    (parse catalog (s ++ separator :: t)).value = .error e := by
  rw [h.parse_eq, Traced.append_of_error hs]

/-- What the second part is refused for, the whole is, so many bytes further on. -/
theorem value_parse_of_right {e : SelectionError} (h : Parts s t)
    (hs : (parse catalog s).value = .ok rules) (ht : (parse catalog t).value = .error e) :
    (parse catalog (s ++ separator :: t)).value = .error (e.shift (byteLength s + 1)) := by
  rw [h.parse_eq, Traced.append_of_ok hs]
  simp only [Traced.shift, ht]
  rfl

end Parts

/-- A builder that takes both parts has the rules that it has from the whole. -/
theorem value_parse_parse (b : Builder) (h : Parts s t)
    (hs : (parse b.catalog s).value = .ok rules) (ht : (parse b.catalog t).value = .ok others) :
    ((b.parse s).andThen (·.parse t)).value = (b.parse (s ++ separator :: t)).value := by
  have hright : (parse (b.append rules).catalog t).value = .ok others := ht
  rw [Builder.parse_of_ok (h.value_parse_of_both hs ht), Builder.parse_of_ok hs,
    Traced.andThen_of_ok rfl, Builder.parse_of_ok hright]
  show Except.ok ((b.append rules).append others) = .ok (b.append (rules ++ others))
  rw [Builder.append, Builder.append, Builder.append, List.append_assoc]

/-- **A rule string in two parts.**  Within the limits the whole is read as its first part is, and
then its second: it has the rules of both, or is refused for what the first part is refused for, or
for what the second is, at a place that counts the first part and the separator.  A builder that
takes the parts one after the other ends in the selection of the whole. -/
theorem parse_concatenation (catalog : Catalog) {s t : Text} (h : Parts s t) :
    (∀ rules others, (parse catalog s).value = .ok rules → (parse catalog t).value = .ok others →
      (parse catalog (s ++ ':' :: t)).value = .ok (rules ++ others) ∧
      ((((Builder.empty catalog).parse s).andThen (·.parse t)).andThen Builder.build).value =
        (ofRuleString catalog (s ++ ':' :: t)).value) ∧
    (∀ e, (parse catalog s).value = .error e →
      (parse catalog (s ++ ':' :: t)).value = .error e) ∧
    ∀ rules e, (parse catalog s).value = .ok rules → (parse catalog t).value = .error e →
      ∃ token position fault, e = .badToken token position fault ∧
        (parse catalog (s ++ ':' :: t)).value =
          .error (.badToken token (position + byteLength s + 1) fault) := by
  refine ⟨fun rules others hs ht => ⟨h.value_parse_of_both hs ht, ?_⟩,
    fun e hs => h.value_parse_of_left hs, fun rules e hs ht => ?_⟩
  · have hparts : (((Builder.empty catalog).parse s).andThen (·.parse t)).value =
        ((Builder.empty catalog).parse (s ++ ':' :: t)).value := value_parse_parse _ h hs ht
    rw [ofRuleString_eq_builder]
    calc ((((Builder.empty catalog).parse s).andThen (·.parse t)).andThen Builder.build).value
      _ = (((Builder.empty catalog).parse s).andThen (·.parse t)).value.bind (·.build.value) :=
          Traced.value_andThen _ _
      _ = ((Builder.empty catalog).parse (s ++ ':' :: t)).value.bind (·.build.value) :=
          by rw [hparts]
      _ = (((Builder.empty catalog).parse (s ++ ':' :: t)).andThen Builder.build).value :=
          (Traced.value_andThen _ _).symm
  · obtain ⟨hbytes, hcount⟩ := h.within_right
    obtain ⟨token, position, fault, rfl⟩ := exists_badToken_of_parse hbytes hcount ht
    exact ⟨token, position, fault, rfl, h.value_parse_of_right hs ht⟩

/-- Blanks stand on both sides of the separator; the é in the first part counts as two bytes. -/
theorem parse_concatenation_seam :
    (parse Catalog.builtin (.of "é-X:kEDH \t: !kRSA ")).value =
        .ok [⟨.add, .keyExchange [.dhe]⟩, ⟨.delete, .keyExchange [.rsa]⟩] ∧
      (parse Catalog.builtin (.of "é-X:kEDH \t: -null")).value =
        .error (.badToken (.of "-null") 13 .unknownKeyword) := by
  have hleft : (parse Catalog.builtin (.of "é-X:kEDH \t")).value =
      .ok [⟨.add, .keyExchange [.dhe]⟩] := by decide +kernel
  have hright : (parse Catalog.builtin (.of " !kRSA ")).value =
      .ok [⟨.delete, .keyExchange [.rsa]⟩] := by decide +kernel
  have hbad : (parse Catalog.builtin (.of " -null")).value =
      .error (.badToken (.of "-null") 1 .unknownKeyword) := by decide +kernel
  have hread : Parts (.of "é-X:kEDH \t") (.of " !kRSA ") := ⟨by decide +kernel, by decide +kernel⟩
  have hrefused : Parts (.of "é-X:kEDH \t") (.of " -null") :=
    ⟨by decide +kernel, by decide +kernel⟩
  refine ⟨((parse_concatenation Catalog.builtin hread).1 _ _ hleft hright).1, ?_⟩
  obtain ⟨token, position, fault, hfault, hvalue⟩ :=
    (parse_concatenation Catalog.builtin hrefused).2.2 _ _ hleft hbad
  cases hfault
  exact hvalue

end CipherRules.Selection
