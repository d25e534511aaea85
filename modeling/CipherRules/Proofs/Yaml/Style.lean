import CipherRules.Proofs.Text
import CipherRules.Proofs.Text.Escape
import CipherRules.Yaml.Flow
import CipherRules.Yaml.Style

/-!
# YAML — What is written

The characters of written texts, and what each style says about the texts that are written in it.
All that is written is printable (`isPrintable_of_mem_renderEntries`), so that a reader allows every
character and finds the line ends as they are (`unifyBreaks_eq_self`).

Between double quotes a character stands for itself or is escaped; `Escaped` lists the ways.
-/

namespace CipherRules.Yaml

open Text (Escape)

variable {c : Char} {t : Text}

/-! ### Printable characters -/

theorem isAllowed_of_isPrintable (h : isPrintable c = true) : isAllowed c = true := by
  simp only [isPrintable, Bool.or_eq_true, Bool.and_eq_true, decide_eq_true_eq, beq_iff_eq] at h
  simp only [isAllowed, Bool.or_eq_true, Bool.and_eq_true, decide_eq_true_eq, beq_iff_eq]
  tauto

theorem isPrintable_of_isAlpha (h : c.isAlpha = true) : isPrintable c = true := by
  have hcase : c.isUpper = true ∨ c.isLower = true := Bool.or_eq_true_iff.1 h
  have hbounds : ' ' ≤ c ∧ c ≤ '~' := by
    simp only [Char.le_def, UInt32.le_iff_toNat_le]
    rcases hcase with hupper | hlower
    · obtain ⟨hfirst, hlast⟩ := of_decide_eq_true hupper
      exact ⟨Nat.le_trans (by decide) hfirst, Nat.le_trans hlast (by decide)⟩
    · obtain ⟨hfirst, hlast⟩ := Bool.and_eq_true_iff.1 hlower
      exact ⟨Nat.le_trans (by decide) (of_decide_eq_true hfirst),
        Nat.le_trans (of_decide_eq_true hlast) (by decide)⟩
  simp [isPrintable, hbounds]

/-- Printable texts have no line ends but those that are kept. -/
theorem unifyBreaks_eq_self (h : ∀ c ∈ t, isPrintable c = true) : unifyBreaks t = t := by
  induction t with
  | nil => rfl
  | cons c t ih =>
    obtain ⟨hc, ht⟩ := List.forall_mem_cons.1 h
    have hreturn : c ≠ '\r' := Text.ne_of_test hc (by decide)
    have hnext : c ≠ '\x85' := Text.ne_of_test hc (by decide)
    rw [unifyBreaks, ih ht, if_neg (by simp [hreturn, hnext])]
    intro _ h
    exact absurd h hreturn

theorem isBreak_eq_false_iff :
    isBreak c = false ↔ c ≠ '\n' ∧ c ≠ '\u2028' ∧ c ≠ '\u2029' := by
  simp [isBreak, and_assoc]

theorem isBlank_of_isAlpha (h : c.isAlpha = true) : isBlank c = false := by
  simp [isBlank, Text.ne_of_test h (d := ' ') rfl, Text.ne_of_test h (d := '\t') rfl]

theorem isBreak_of_isAlpha (h : c.isAlpha = true) : isBreak c = false :=
  isBreak_eq_false_iff.2 ⟨Text.ne_of_test h rfl, Text.ne_of_test h rfl, Text.ne_of_test h rfl⟩

/-- The only blank that is printable is the space. -/
theorem eq_space_of_isBlank (h : isPrintable c = true) (hblank : isBlank c = true) : c = ' ' := by
  simp only [isBlank, Bool.or_eq_true, beq_iff_eq] at hblank
  exact hblank.resolve_right (Text.ne_of_test h (by decide))

theorem isPrintable_hexDigit {n : Nat} (h : n < 16) : isPrintable (Text.hexDigit n) = true := by
  have hdigits : ∀ d : Fin 16, isPrintable (Text.hexDigit d) = true := by decide
  exact hdigits ⟨n, h⟩

/-! ### Escaped characters -/

/-- How a character may stand between double quotes. -/
inductive Escaped (c : Char) : Text → Prop where
  | letter {d : Char} (h : escaped? d = some c) (hd : isPrintable d = true)
      (hbreak : isBreak d = false) : Escaped c ['\\', d]
  | twoDigits (h : c.toNat < 16 ^ 2) : Escaped c ('\\' :: 'x' :: Text.fixedHex 2 c.toNat)
  | fourDigits (h : c.toNat < 16 ^ 4) : Escaped c ('\\' :: 'u' :: Text.fixedHex 4 c.toNat)
  | itself (h : isPrintable c = true) (hbreak : isBreak c = false) (hquote : c ≠ '"')
      (hbackslash : c ≠ '\\') : Escaped c [c]

/-- Characters that are not printable have code points of at most four digits. -/
theorem toNat_lt_of_not_isPrintable (h : isPrintable c = false) : c.toNat < 16 ^ 4 := by
  simp only [isPrintable, Bool.or_eq_false_iff, decide_eq_false_iff_not] at h
  omega

theorem escaped_doubleChar (c : Char) : Escaped c (doubleChar c) := by
  unfold doubleChar
  split
  iterate 14 exact .letter rfl (by decide) (by decide)
  rename_i _ _ _ _ hline _ _ _ _ hquote hbackslash _ hseparator hparagraph
  split
  · rename_i hprintable
    exact .itself hprintable (isBreak_eq_false_iff.2 ⟨hline, hseparator, hparagraph⟩) hquote
      hbackslash
  · rename_i hprintable
    split
    · exact .twoDigits (by omega)
    · exact .fourDigits (toNat_lt_of_not_isPrintable (Bool.eq_false_iff.2 hprintable))

/-- The escape of a code point is printable, if its letter is. -/
theorem isPrintable_of_mem_digits {letter d : Char} {width n : Nat}
    (hletter : isPrintable letter = true) (h : d ∈ '\\' :: letter :: Text.fixedHex width n) :
    isPrintable d = true := by
  simp only [List.mem_cons] at h
  rcases h with rfl | rfl | h
  · decide
  · exact hletter
  · obtain ⟨digit, hdigit, rfl⟩ := Text.mem_fixedHex h
    exact isPrintable_hexDigit hdigit

theorem Escaped.isPrintable_of_mem {s : Text} {d : Char} (h : Escaped c s) (hd : d ∈ s) :
    isPrintable d = true := by
  cases h with
  | letter _ hletter _ =>
    simp only [List.mem_cons, List.not_mem_nil, or_false] at hd
    rcases hd with rfl | rfl
    · decide
    · exact hletter
  | twoDigits _ => exact isPrintable_of_mem_digits (by decide) hd
  | fourDigits _ => exact isPrintable_of_mem_digits (by decide) hd
  | itself h _ _ _ => exact List.mem_singleton.1 hd ▸ h

/-! ### Written texts -/

section Lines

variable {afterBreak : Bool} {spell : Char → Text}

theorem indentLines_of_isBreak (h : isBreak c = true) :
    indentLines afterBreak spell (c :: t) = c :: indentLines true spell t := by
  rw [indentLines, if_pos h]

theorem indentLines_of_not_isBreak (h : isBreak c = false) :
    indentLines afterBreak spell (c :: t) =
      (if afterBreak then indentation else []) ++ (spell c ++ indentLines false spell t) := by
  rw [indentLines, if_neg (Bool.eq_false_iff.1 h), List.append_assoc]

end Lines

/-- Written lines have no characters but those of the text and spaces. -/
theorem mem_indentLines {spell : Char → Text} {d : Char} (hspell : ∀ c, ∀ d ∈ spell c, d = c) :
    ∀ {t : Text} {afterBreak : Bool}, d ∈ indentLines afterBreak spell t → d = ' ' ∨ d ∈ t := by
  intro t
  induction t with
  | nil =>
    intro afterBreak h
    cases h
  | cons c t ih =>
    intro afterBreak h
    rw [indentLines] at h
    split at h
    · rcases List.mem_cons.1 h with rfl | h
      · exact Or.inr List.mem_cons_self
      · exact (ih h).imp_right (List.mem_cons_of_mem c)
    · rcases List.mem_append.1 h with h | h
      · rcases List.mem_append.1 h with h | h
        · left
          split at h
          · simpa [indentation] using h
          · cases h
        · exact Or.inr (hspell c d h ▸ List.mem_cons_self)
      · exact (ih h).imp_right (List.mem_cons_of_mem c)

theorem isPrintable_of_not_needsEscapes (h : needsEscapes t = false) :
    ∀ c ∈ t, isPrintable c = true := by
  simp only [needsEscapes, Bool.or_eq_false_iff, Bool.not_eq_false', List.all_eq_true] at h
  exact h.1

namespace Style

theorem of_eq_plain (h : Style.of t = .plain) :
    needsEscapes t = false ∧ looksPlain t = true ∧ hasMeaning t = false := by
  rw [Style.of] at h
  split_ifs at h
  simp_all

theorem of_eq_singleQuoted (h : Style.of t = .singleQuoted) :
    needsEscapes t = false ∧ '\n' ∉ t ∧ hasPair isBreak (· == ' ') t = false := by
  rw [Style.of] at h
  split_ifs at h
  simp_all

theorem of_eq_literal (h : Style.of t = .literal) :
    needsEscapes t = false ∧ '\n' ∈ t ∧ t.getLast? ≠ some ' ' := by
  rw [Style.of] at h
  split_ifs at h
  simp_all

end Style

theorem isPrintable_of_mem_renderSingle (h : needsEscapes t = false) (hc : c ∈ renderSingle t) :
    isPrintable c = true := by
  have ht := isPrintable_of_not_needsEscapes h
  have hspell : ∀ c, ∀ d ∈ singleChar c, d = c := by
    intro c d hd
    rw [singleChar] at hd
    split at hd <;> simpa using hd
  simp only [renderSingle, List.mem_append, List.mem_singleton] at hc
  rcases hc with ((rfl | hc) | hc) | rfl
  · decide
  · rcases mem_indentLines hspell hc with rfl | hc
    · decide
    · exact ht c hc
  · split at hc
    · obtain rfl : c = ' ' := by simpa [indentation] using hc
      decide
    · cases hc
  · decide

theorem isPrintable_of_mem_renderDouble (hc : c ∈ renderDouble t) : isPrintable c = true := by
  simp only [renderDouble, List.mem_append, List.mem_singleton, List.mem_flatMap] at hc
  rcases hc with (rfl | ⟨d, -, hc⟩) | rfl
  · decide
  · exact (escaped_doubleChar d).isPrintable_of_mem hc
  · decide

theorem isPrintable_of_mem_renderLiteral (h : needsEscapes t = false) (hc : c ∈ renderLiteral t) :
    isPrintable c = true := by
  have ht := isPrintable_of_not_needsEscapes h
  have hindentation : (indentationOf t).all isPrintable = true := by
    rw [indentationOf]
    split <;> rfl
  have hchomping : (chompingOf t).all isPrintable = true := by
    rw [chompingOf]
    split
    · split_ifs <;> rfl
    · rfl
  simp only [renderLiteral, List.mem_append, List.mem_singleton] at hc
  rcases hc with (((rfl | hc) | hc) | rfl) | hc
  · decide
  · exact List.all_eq_true.1 hindentation c hc
  · exact List.all_eq_true.1 hchomping c hc
  · decide
  · rcases mem_indentLines (fun _ _ => List.mem_singleton.1) hc with rfl | hc
    · decide
    · exact ht c hc

theorem isPrintable_of_mem_render (hc : c ∈ render t) : isPrintable c = true := by
  rw [render] at hc
  cases h : Style.of t with
  | plain =>
    rw [h] at hc
    exact isPrintable_of_not_needsEscapes (Style.of_eq_plain h).1 c hc
  | singleQuoted =>
    rw [h] at hc
    exact isPrintable_of_mem_renderSingle (Style.of_eq_singleQuoted h).1 hc
  | doubleQuoted =>
    rw [h] at hc
    exact isPrintable_of_mem_renderDouble hc
  | literal =>
    rw [h] at hc
    exact isPrintable_of_mem_renderLiteral (Style.of_eq_literal h).1 hc

/-- **All that is written is printable**, if the keys are. -/
theorem isPrintable_of_mem_renderEntries {entries : List (Text × Text)}
    (hkeys : ∀ e ∈ entries, ∀ c ∈ e.1, isPrintable c = true) (hc : c ∈ renderEntries entries) :
    isPrintable c = true := by
  obtain ⟨e, he, hc⟩ := List.mem_flatMap.1 hc
  have hbody : ∀ d ∈ e.1 ++ Text.of ": " ++ render e.2, isPrintable d = true := by
    intro d hd
    simp only [List.mem_append, List.mem_cons, List.not_mem_nil, or_false] at hd
    rcases hd with (hd | rfl | rfl) | hd
    · exact hkeys e he d hd
    · decide
    · decide
    · exact isPrintable_of_mem_render hd
  rw [endLine] at hc
  split at hc
  · exact hbody c hc
  · rcases List.mem_append.1 hc with hc | hc
    · exact hbody c hc
    · obtain rfl := List.mem_singleton.1 hc
      decide

end CipherRules.Yaml
