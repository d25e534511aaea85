import CipherRules.Proofs.Text
import CipherRules.Proofs.Text.Escape
import CipherRules.Toml.Quoted
import CipherRules.Toml.Style

/-!
# TOML — Quoted texts read back

A text that has been put in quotes is read back as it was, in whichever of the four forms
(`quoted?_render`).  A character that is escaped is read alike in one-line and in tripled texts;
`Escaped` lists the ways in which it may be written.  In a tripled text the reader counts the quotes
in a row, and the writer sees to it that it never counts three before the end.
-/

namespace CipherRules.Toml

open Text (Escape withChar withText)

variable {c : Char} {t rest : Text}

/-! ### Escaped characters -/

/-- How a character may stand between double quotes. -/
inductive Escaped (c : Char) : Text → Prop where
  | letter {d : Char} (h : escaped? d = some c) : Escaped c ['\\', d]
  | digits {ds : Text} (h : Escape.Spells c 4 0 ds) : Escaped c ('\\' :: 'u' :: ds)
  | itself (h : isLineChar c = true) (hquote : c ≠ '"') (hbackslash : c ≠ '\\') : Escaped c [c]

theorem toNat_le_of_isControl (h : isControl c = true) : c.toNat ≤ 0x7F := by
  simp only [isControl, Bool.and_eq_true, Bool.or_eq_true, decide_eq_true_eq, beq_iff_eq] at h
  obtain ⟨⟨h | rfl, -⟩, -⟩ := h
  · have hlt : c.toNat < 0x20 := h
    omega
  · decide

theorem isLineChar_of_not_isControl (h : isControl c = false) (hline : c ≠ '\n') :
    isLineChar c = true := by
  by_cases htab : c = '\t'
  · subst htab
    rfl
  · simp only [isControl, Bool.and_eq_false_iff, Bool.or_eq_false_iff, decide_eq_false_iff_not,
      beq_eq_false_iff_ne, bne_eq_false_iff_eq, hline, htab, or_false] at h
    simp [isLineChar, Char.not_lt.1 h.1, h.2]

theorem escaped_escapeChar (c : Char) : Escaped c (escapeChar c) := by
  unfold escapeChar
  split
  iterate 7 exact .letter rfl
  rename_i _ _ hline _ _ hquote hbackslash
  split
  · rename_i hcontrol
    have hcode := toNat_le_of_isControl hcontrol
    exact .digits (Escape.spells_fixedHex (by omega))
  · rename_i hplain
    exact .itself (isLineChar_of_not_isControl (Bool.eq_false_iff.2 hplain) hline) hquote hbackslash

/-- What stands for a character begins neither with a quote nor with a line end. -/
theorem Escaped.exists_cons {s : Text} (h : Escaped c s) :
    ∃ d ds, s = d :: ds ∧ d ≠ '"' ∧ isLineChar d = true := by
  cases h with
  | letter _ => exact ⟨_, _, rfl, by decide, rfl⟩
  | digits _ => exact ⟨_, _, rfl, by decide, rfl⟩
  | itself hline hquote _ => exact ⟨_, _, rfl, hquote, hline⟩

/-! ### Basic texts -/

theorem basic?_of_spells {left value : Nat} {ds : Text} (h : Escape.Spells c left value ds) :
    basic? (some (.digits left value)) (ds ++ rest) = withChar c (basic? none rest) := by
  induction h with
  | last h => simp only [List.singleton_append, basic?, h]
  | more h _ ih => simp only [List.cons_append, basic?, h, ih]

theorem basic?_of_escaped {s : Text} (h : Escaped c s) :
    basic? none (s ++ rest) = withChar c (basic? none rest) := by
  cases h with
  | letter h => simp [basic?, h]
  | digits h => simp [basic?, escaped?, escapedDigits?, basic?_of_spells h]
  | itself h hquote hbackslash => simp [basic?, h, hquote, hbackslash]

theorem basic?_flatMap_escapeChar (t rest : Text) :
    basic? none (t.flatMap escapeChar ++ '"' :: rest) = some (t, rest) := by
  induction t with
  | nil => rfl
  | cons c t ih =>
    rw [List.flatMap_cons, List.append_assoc, basic?_of_escaped (escaped_escapeChar c), ih,
      Text.withChar_some]

/-! ### Tripled basic texts -/

/-- The closing quotes of a tripled text, and a line end. -/
def closing (quote : Char) (rest : Text) : Text := quotesOf quote 3 ++ '\n' :: rest

theorem basicLines?_of_spells {left value : Nat} {ds : Text}
    (h : Escape.Spells c left value ds) :
    basicLines? (.escape (.digits left value)) (ds ++ rest) =
      withChar c (basicLines? (.quotes 0) rest) := by
  induction h with
  | last h => simp only [List.singleton_append, basicLines?, h]
  | more h _ ih => simp only [List.cons_append, basicLines?, h, ih]

/-- Fewer than three quotes in a row are content, once another character follows. -/
theorem basicLines?_quotes {n : Nat} (h : n ≤ 2) (hc : c ≠ '"') :
    basicLines? (.quotes n) (c :: rest) =
      withText (quotesOf '"' n) (basicLines? (.quotes 0) (c :: rest)) := by
  have hfew : ¬ 3 ≤ n := by omega
  simp [basicLines?, hc, hfew, quotesOf]

theorem basicLines?_of_escaped {s : Text} (h : Escaped c s) (rest : Text) :
    basicLines? (.quotes 0) (s ++ rest) = withChar c (basicLines? (.quotes 0) rest) := by
  cases h with
  | letter h => simp [basicLines?, quotesOf, h]
  | digits h =>
    simp [basicLines?, quotesOf, escaped?, escapedDigits?, basicLines?_of_spells h]
  | itself h hquote hbackslash =>
    have hreturn : c ≠ '\r' := Text.ne_of_test h rfl
    simp [basicLines?, quotesOf, h, hquote, hbackslash, hreturn]

/-- What stands for a character ends a row of quotes. -/
theorem basicLines?_escaped {n : Nat} {s : Text} (hn : n ≤ 2) (h : Escaped c s) (rest : Text) :
    basicLines? (.quotes n) (s ++ rest) =
      withText (quotesOf '"' n) (withChar c (basicLines? (.quotes 0) rest)) := by
  have hread := basicLines?_of_escaped h rest
  obtain ⟨d, ds, rfl, hd, -⟩ := h.exists_cons
  rw [List.cons_append, basicLines?_quotes hn hd, ← List.cons_append, hread]

/-- So does a line end. -/
theorem basicLines?_lineEnd {n : Nat} (hn : n ≤ 2) (rest : Text) :
    basicLines? (.quotes n) ('\n' :: rest) =
      withText (quotesOf '"' n) (withChar '\n' (basicLines? (.quotes 0) rest)) := by
  have hread : basicLines? (.quotes 0) ('\n' :: rest) =
      withChar '\n' (basicLines? (.quotes 0) rest) := by
    simp [basicLines?, quotesOf, isLineChar]
  rw [basicLines?_quotes hn (by decide), hread]

theorem basicLines?_quote {n : Nat} (h : n ≠ 4) :
    basicLines? (.quotes n) ('"' :: rest) = basicLines? (.quotes (n + 1)) rest := by
  rw [basicLines?, if_pos rfl, if_neg h]

/-- After at most two quotes in a row, the closing quotes end the text. -/
theorem basicLines?_close {n : Nat} (h : n ≤ 2) (rest : Text) :
    basicLines? (.quotes n) (closing '"' rest) =
      some (quotesOf '"' n, '\n' :: rest) := by
  obtain rfl | rfl | rfl : n = 0 ∨ n = 1 ∨ n = 2 := by omega
  all_goals rfl

/-- A quote more in a row. -/
theorem quotesOf_append_cons (q : Char) (n : Nat) (t : Text) :
    quotesOf q n ++ q :: t = quotesOf q (n + 1) ++ t := by
  simp [quotesOf, List.replicate_succ']

/-- **The body of a tripled basic text is read back**, after the quotes that precede it in a row. -/
theorem basicLines?_escapeLines (t rest : Text) : ∀ {n : Nat}, n ≤ 2 →
    basicLines? (.quotes n) (escapeLines n t ++ closing '"' rest) =
      some (quotesOf '"' n ++ t, '\n' :: rest) := by
  induction t with
  | nil =>
    intro n hn
    rw [escapeLines, List.nil_append, basicLines?_close hn, List.append_nil]
  | cons c t ih =>
    intro n hn
    have hescaped : basicLines? (.quotes n)
        (escapeChar c ++ escapeLines 0 t ++ closing '"' rest) =
        some (quotesOf '"' n ++ c :: t, '\n' :: rest) := by
      rw [List.append_assoc, basicLines?_escaped hn (escaped_escapeChar c), ih (Nat.zero_le 2)]
      rfl
    rw [escapeLines]
    split
    · rename_i hquote
      subst hquote
      split
      · exact hescaped
      · rw [List.cons_append, basicLines?_quote (by omega), ih (by omega), quotesOf_append_cons]
    · split
      · rename_i hline
        subst hline
        rw [List.cons_append, basicLines?_lineEnd hn, ih (Nat.zero_le 2)]
        rfl
      · exact hescaped

/-! ### Literal texts -/

theorem literal?_append (h : ∀ c ∈ t, isLineChar c = true ∧ c ≠ '\'') (rest : Text) :
    literal? (t ++ '\'' :: rest) = some (t, rest) := by
  induction t with
  | nil => rfl
  | cons c t ih =>
    obtain ⟨⟨hline, hquote⟩, ht⟩ := List.forall_mem_cons.1 h
    rw [List.cons_append, literal?, if_neg hquote, if_pos hline, ih ht, Text.withChar_some]

/-! ### Tripled literal texts -/

theorem hasTriple_of_cons {q a : Char} (h : hasTriple q (a :: t) = false) :
    hasTriple q t = false := by
  match t with
  | [] => rfl
  | [_] => rfl
  | _ :: _ :: _ =>
    rw [hasTriple, Bool.or_eq_false_iff] at h
    exact h.2

theorem hasTriple_of_append {q : Char} {s : Text} (h : hasTriple q (s ++ t) = false) :
    hasTriple q t = false := by
  induction s with
  | nil => exact h
  | cons a s ih => exact ih (hasTriple_of_cons h)

theorem literalLines?_close {n : Nat} (h : n ≤ 2) (rest : Text) :
    literalLines? n (closing '\'' rest) = some (quotesOf '\'' n, '\n' :: rest) := by
  obtain rfl | rfl | rfl : n = 0 ∨ n = 1 ∨ n = 2 := by omega
  all_goals rfl

theorem literalLines?_quote {n : Nat} (h : n ≠ 4) :
    literalLines? n ('\'' :: rest) = literalLines? (n + 1) rest := by
  simp [literalLines?, h]

theorem literalLines?_content {n : Nat} (hn : n ≤ 2) (h : isControl c = false)
    (hquote : c ≠ '\'') : literalLines? n (c :: rest) =
      withText (quotesOf '\'' n) (withChar c (literalLines? 0 rest)) := by
  have hfew : ¬ 3 ≤ n := by omega
  have hreturn : c ≠ '\r' := by
    rintro rfl
    exact absurd h (by decide)
  have hcontent : (isLineChar c || c == '\n') = true := by
    by_cases hline : c = '\n'
    · simp [hline]
    · simp [isLineChar_of_not_isControl h hline]
  simp [literalLines?, hquote, hfew, hreturn, hcontent]

/-- **The body of a tripled literal text is read back**, after the quotes that precede it in a row,
if there is no triple among them all. -/
theorem literalLines?_append (rest : Text) : ∀ {n : Nat}, n ≤ 2 →
    (∀ c ∈ t, isControl c = false) → hasTriple '\'' (quotesOf '\'' n ++ t) = false →
    literalLines? n (t ++ closing '\'' rest) =
      some (quotesOf '\'' n ++ t, '\n' :: rest) := by
  induction t with
  | nil =>
    intro n hn _ _
    rw [List.nil_append, literalLines?_close hn, List.append_nil]
  | cons c t ih =>
    intro n hn hcontrol htriple
    obtain ⟨hc, ht⟩ := List.forall_mem_cons.1 hcontrol
    rw [List.cons_append]
    by_cases hquote : c = '\''
    · subst hquote
      have hfew : n + 1 ≤ 2 := by
        by_contra hmany
        obtain rfl : n = 2 := by omega
        exact absurd htriple (by simp [quotesOf, hasTriple])
      rw [quotesOf_append_cons] at htriple ⊢
      rw [literalLines?_quote (by omega), ih hfew ht htriple]
    · have hrest : hasTriple '\'' (quotesOf '\'' 0 ++ t) = false :=
        hasTriple_of_cons (hasTriple_of_append htriple)
      rw [literalLines?_content hn hc hquote, ih (by decide) ht hrest]
      rfl

/-! ### All styles -/

theorem afterLineEnd_cons (h : isLineChar c = true) : afterLineEnd (c :: rest) = c :: rest := by
  have hline : c ≠ '\n' := Text.ne_of_test h rfl
  have hreturn : c ≠ '\r' := Text.ne_of_test h rfl
  unfold afterLineEnd
  split <;> simp_all

/-- The line end after the opening quotes is none of the text's own. -/
theorem afterLineEnd_openingLine {body : Text}
    (h : '\n' ∉ t → ∃ c rest, body = c :: rest ∧ isLineChar c = true) :
    afterLineEnd (openingLine t ++ body) = body := by
  rw [openingLine]
  split
  · rfl
  · rename_i hline
    obtain ⟨c, rest, rfl, hc⟩ := h (by simpa using hline)
    exact afterLineEnd_cons hc

theorem Style.isControl_of_literalLines (h : Style.of t = .literalLines) :
    (∀ c ∈ t, isControl c = false) ∧ hasTriple '\'' t = false := by
  simp only [Style.of] at h
  split_ifs at h
  simp_all

theorem Style.isLineChar_of_literal (h : Style.of t = .literal) :
    t ≠ [] ∧ ∀ c ∈ t, isLineChar c = true ∧ c ≠ '\'' := by
  simp only [Style.of] at h
  split_ifs at h with hbasic hliteral
  simp only [Bool.and_eq_true, Bool.not_eq_true', List.any_eq_false, List.contains_eq_mem,
    decide_eq_false_iff_not] at hliteral hbasic
  obtain ⟨⟨hplain, hline⟩, hquote⟩ := hliteral
  refine ⟨?_, fun c hc => ⟨isLineChar_of_not_isControl (by simpa using hplain c hc) ?_, ?_⟩⟩
  · rintro rfl
    simp at hbasic
  · rintro rfl
    exact hline hc
  · rintro rfl
    exact hquote hc

theorem quoted?_basic (t rest : Text) :
    quoted? ('"' :: (t.flatMap escapeChar ++ '"' :: '\n' :: rest)) = some (t, '\n' :: rest) := by
  have hbody := basic?_flatMap_escapeChar t ('\n' :: rest)
  cases t with
  | nil => rfl
  | cons c t =>
    -- the second character is no quote, so the text is not tripled
    obtain ⟨d, ds, hescape, hd, -⟩ := (escaped_escapeChar c).exists_cons
    rw [List.flatMap_cons, hescape, List.append_assoc, List.cons_append] at hbody ⊢
    rw [← hbody]
    unfold quoted?
    split <;> simp_all

theorem quoted?_literal (h : t ≠ []) (hline : ∀ c ∈ t, isLineChar c = true ∧ c ≠ '\'') :
    quoted? ('\'' :: (t ++ '\'' :: '\n' :: rest)) = some (t, '\n' :: rest) := by
  have hbody := literal?_append hline ('\n' :: rest)
  cases t with
  | nil => exact absurd rfl h
  | cons c t =>
    have hc : c ≠ '\'' := (hline c List.mem_cons_self).2
    rw [List.cons_append] at hbody ⊢
    rw [← hbody]
    unfold quoted?
    split <;> simp_all

/-- The body of a tripled basic text does not begin with a line end if it has none. -/
theorem exists_escapeLines_append (hline : '\n' ∉ t) (rest : Text) :
    ∃ c later, escapeLines 0 t ++ closing '"' rest = c :: later ∧ isLineChar c = true := by
  cases t with
  | nil => exact ⟨_, _, rfl, rfl⟩
  | cons c t =>
    have hc : c ≠ '\n' := (List.ne_of_not_mem_cons hline).symm
    by_cases hquote : c = '"'
    · subst hquote
      exact ⟨_, _, rfl, rfl⟩
    · obtain ⟨d, ds, hescape, -, hd⟩ := (escaped_escapeChar c).exists_cons
      rw [escapeLines, if_neg hquote, if_neg hc, hescape]
      exact ⟨_, _, rfl, hd⟩

theorem quoted?_basicLines (t rest : Text) :
    quoted? (quotesOf '"' 3 ++ (openingLine t ++ (escapeLines 0 t ++ closing '"' rest))) =
      some (t, '\n' :: rest) := by
  have hopening : afterLineEnd (openingLine t ++ (escapeLines 0 t ++ closing '"' rest)) =
      escapeLines 0 t ++ closing '"' rest :=
    afterLineEnd_openingLine fun hline => exists_escapeLines_append hline rest
  exact (congrArg _ hopening).trans (basicLines?_escapeLines t rest (by decide))

theorem quoted?_literalLines (hcontrol : ∀ c ∈ t, isControl c = false)
    (htriple : hasTriple '\'' t = false) :
    quoted? (quotesOf '\'' 3 ++ (openingLine t ++ (t ++ closing '\'' rest))) =
      some (t, '\n' :: rest) := by
  have hopening : afterLineEnd (openingLine t ++ (t ++ closing '\'' rest)) =
      t ++ closing '\'' rest := by
    refine afterLineEnd_openingLine fun hline => ?_
    cases t with
    | nil => exact ⟨_, _, rfl, rfl⟩
    | cons c t =>
      exact ⟨c, _, rfl, isLineChar_of_not_isControl (hcontrol c List.mem_cons_self)
        (List.ne_of_not_mem_cons hline).symm⟩
  exact (congrArg _ hopening).trans (literalLines?_append rest (by decide) hcontrol htriple)

/-- **What is written in quotes is read back.** -/
theorem quoted?_render (t rest : Text) :
    quoted? (render t ++ '\n' :: rest) = some (t, '\n' :: rest) := by
  rw [render]
  cases h : Style.of t with
  | basic => simpa using quoted?_basic t rest
  | literal =>
    obtain ⟨hnonempty, hline⟩ := Style.isLineChar_of_literal h
    simpa using quoted?_literal hnonempty hline
  | basicLines => simpa [closing, quotesOf] using quoted?_basicLines t rest
  | literalLines =>
    obtain ⟨hcontrol, htriple⟩ := Style.isControl_of_literalLines h
    simpa [closing, quotesOf] using quoted?_literalLines hcontrol htriple

end CipherRules.Toml
