import CipherRules.RuleString
import CipherRules.Proofs.Text

/-!
# Rule strings — Words and bodies

Which texts can stand in a rule string as they are.  A *body* (`Body`) can stand behind the sign of
a token: no separator cuts it, no blank is trimmed off it, and it does not start with another sign.
A *word* (`Word`) can moreover be a term, since no `+` cuts it either.  Words joined by `+` are a
body (`body_join`), and a token made of a sign and a body is trimmed already (`trim_sign_append`).

`Writable` says which names of suites are words that are read as names; every keyword is a word
(`Keyword.word_of_mem`).
-/

namespace CipherRules

namespace RuleString

/-- A text that can stand behind the sign of a token. -/
structure Body (t : Text) : Prop where
  ne_nil : t ≠ []
  no_separator : separator ∉ t
  no_leading_blank : ∀ c ∈ t.head?, Text.isAsciiBlank c = false
  no_trailing_blank : ∀ c ∈ t.getLast?, Text.isAsciiBlank c = false
  no_leading_mark : ∀ c ∈ t.head?, isLeadingMark c = false

/-- A body that is one term. -/
structure Word (w : Text) : Prop extends Body w where
  no_termSeparator : termSeparator ∉ w

/-- A term may follow a body. -/
theorem Body.append {t u : Text} (ht : Body t) (hu : Body u) : Body (t ++ termSeparator :: u) where
  ne_nil := by simp
  no_separator := by
    have hne : separator ≠ termSeparator := by decide
    simp [ht.no_separator, hu.no_separator, hne]
  no_leading_blank c hc := by
    obtain ⟨d, v, rfl⟩ := List.exists_cons_of_ne_nil ht.ne_nil
    exact ht.no_leading_blank c hc
  no_trailing_blank c hc := by
    obtain ⟨d, v, rfl⟩ := List.exists_cons_of_ne_nil hu.ne_nil
    exact hu.no_trailing_blank c (by simpa [List.getLast?_append] using hc)
  no_leading_mark c hc := by
    obtain ⟨d, v, rfl⟩ := List.exists_cons_of_ne_nil ht.ne_nil
    exact ht.no_leading_mark c hc

/-- Words joined by `+` are a body. -/
theorem body_join : ∀ {ws : List Text}, ws ≠ [] → (∀ w ∈ ws, Word w) →
    Body (Text.join [termSeparator] ws)
  | [w], _, h => (h w (List.mem_singleton_self w)).toBody
  | w :: v :: rest, _, h => by
      have hw : Word w := h w List.mem_cons_self
      have hrest : Body (Text.join [termSeparator] (v :: rest)) :=
        body_join (List.cons_ne_nil v rest) fun u hu => h u (List.mem_cons_of_mem w hu)
      rw [Text.join_cons_cons, List.append_assoc]
      exact hw.toBody.append hrest

/-- A token of a sign and a body has no blank at either end. -/
theorem trim_sign_append (op : Operation) {t : Text} (h : Body t) :
    Text.trim (op.sign ++ t) = op.sign ++ t := by
  obtain ⟨d, v, rfl⟩ := List.exists_cons_of_ne_nil h.ne_nil
  refine Text.trim_eq_self (fun c hc => ?_) fun c hc => ?_
  · cases op with
    | add => exact h.no_leading_blank c hc
    | _ =>
      cases hc
      decide
  · exact h.no_trailing_blank c (by simpa [List.getLast?_append] using hc)

theorem separator_not_mem_sign (op : Operation) : separator ∉ op.sign := by
  cases op <;> decide

/-! ### Names -/

/-- The characters that may stand in front of a token. -/
def marks : List Char := ['+', '-', '!', '&', '@']

theorem isLeadingMark_eq_false_iff {c : Char} : isLeadingMark c = false ↔ c ∉ marks := by
  simp only [isLeadingMark, Operation.ofSign?, marks, List.mem_cons, List.not_mem_nil]
  split
  · simp [*]
  · split
    · simp [*]
    · split
      · simp [*]
      · split <;> simp [*]

/-- A name that a rule string can write as it is: it looks like the name of a suite, neither `:` nor
`+` is in it, no blank stands at either end of it, and no sign in front. -/
structure Writable (n : Text) : Prop where
  looksLike : looksLikeSuiteName n = true
  no_separator : ':' ∉ n
  no_plus : '+' ∉ n
  no_leading_blank : ∀ c ∈ n.head?, Text.isAsciiBlank c = false
  no_trailing_blank : ∀ c ∈ n.getLast?, Text.isAsciiBlank c = false
  no_leading_mark : ∀ c ∈ n.head?, c ∉ marks

instance (n : Text) : Decidable (Writable n) :=
  decidable_of_iff (looksLikeSuiteName n = true ∧ ':' ∉ n ∧ '+' ∉ n ∧
      n.head?.all (fun c => !Text.isAsciiBlank c && c ∉ marks) = true ∧
      n.getLast?.all (fun c => !Text.isAsciiBlank c) = true) <| by
    simp only [Option.all_eq_true, Bool.and_eq_true, Bool.not_eq_true', decide_eq_true_eq]
    exact ⟨fun ⟨h₁, h₂, h₃, h₄, h₅⟩ =>
        ⟨h₁, h₂, h₃, fun c hc => (h₄ c hc).1, h₅, fun c hc => (h₄ c hc).2⟩,
      fun h => ⟨h.looksLike, h.no_separator, h.no_plus,
        fun c hc => ⟨h.no_leading_blank c hc, h.no_leading_mark c hc⟩, h.no_trailing_blank⟩⟩

theorem Writable.word {n : Text} (h : Writable n) : Word n where
  ne_nil := by
    rintro rfl
    exact absurd h.looksLike (by decide)
  no_separator := h.no_separator
  no_leading_blank := h.no_leading_blank
  no_trailing_blank := h.no_trailing_blank
  no_leading_mark c hc := isLeadingMark_eq_false_iff.2 (h.no_leading_mark c hc)
  no_termSeparator := h.no_plus

end RuleString

/-! ### Keywords -/

namespace Keyword

/-- Each entry of the table gives the meaning of its keyword. -/
theorem meaning?_of_mem : ∀ e ∈ table, meaning? e.1 = some e.2 := by decide +kernel

theorem mem_of_meaning? {w : Text} {p : Predicate} (h : meaning? w = some p) : (w, p) ∈ table := by
  obtain ⟨before, later, heq, -⟩ := List.lookup_eq_some_iff.1 h
  rw [heq]
  exact List.mem_append_right _ List.mem_cons_self

/-- The spelling of a class is a keyword for it. -/
theorem mem_of_spelling? {p : Predicate} {w : Text} (h : spelling? p = some w) :
    (w, p) ∈ table := by
  unfold spelling? at h
  obtain ⟨e, he, rfl⟩ := Option.map_eq_some_iff.1 h
  have hp : e.2 = p := by simpa using List.find?_some he
  rw [← hp]
  exact List.mem_of_find?_eq_some he

/-- A class with a keyword has a spelling. -/
theorem exists_spelling?_of_mem {w : Text} {p : Predicate} (h : (w, p) ∈ table) :
    ∃ v, spelling? p = some v := by
  have hsome : (table.find? (·.2 == p)).isSome = true :=
    List.find?_isSome.2 ⟨(w, p), h, beq_self_eq_true p⟩
  obtain ⟨e, he⟩ := Option.isSome_iff_exists.1 hsome
  exact ⟨e.1, by rw [spelling?, he]; rfl⟩

/-- Every keyword can stand in a rule string as it is. -/
theorem word_of_mem {w : Text} {p : Predicate} (h : (w, p) ∈ table) : RuleString.Word w := by
  have shape : ∀ e ∈ table, e.1 ≠ [] ∧ RuleString.separator ∉ e.1 ∧
      e.1.head?.all (fun c => !Text.isAsciiBlank c && !RuleString.isLeadingMark c) = true ∧
      e.1.getLast?.all (fun c => !Text.isAsciiBlank c) = true ∧
      RuleString.termSeparator ∉ e.1 := by decide +kernel
  obtain ⟨hne, hsep, hhead, hlast, hterm⟩ := shape _ h
  simp only [Option.all_eq_true, Bool.and_eq_true, Bool.not_eq_true'] at hhead hlast
  exact ⟨⟨hne, hsep, fun c hc => (hhead c hc).1, hlast, fun c hc => (hhead c hc).2⟩, hterm⟩

/-- No keyword looks like the name of a suite. -/
theorem meaning?_eq_none_of_looksLike {n : Text} (h : looksLikeSuiteName n = true) :
    meaning? n = none := by
  have plain : ∀ e ∈ table, looksLikeSuiteName e.1 = false := by decide +kernel
  cases hm : meaning? n with
  | none => rfl
  | some p => exact absurd (h.symm.trans (plain _ (mem_of_meaning? hm))) (by simp)

end Keyword

end CipherRules
