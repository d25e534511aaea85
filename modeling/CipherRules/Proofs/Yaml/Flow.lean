import CipherRules.Proofs.Yaml.Style

/-!
# YAML — Flow scalars read back

What is written plain, between single quotes or between double quotes is read back as it was:
`plain?_append`, `single?_renderSingle` and `double?_renderDouble`.  Each is proved for the rest of
a text, behind a gap that has been read; what the gap contributes comes first.

Between single quotes a line may end, but only at one of the separators of Unicode, which are kept;
the indentation behind it is dropped.
-/

namespace CipherRules.Yaml

open Text (Escape withChar withText)

variable {c : Char} {t rest : Text} {p : Place}

/-- The start of a line that is neither empty nor indented, or the end of the document. -/
def StartsLine (t : Text) : Prop := ∀ c ∈ t.head?, isBlank c = false ∧ isBreak c = false

theorem hasPair_cons (isFirst isSecond : Char → Bool) (c : Char) (t : Text) :
    hasPair isFirst isSecond (c :: t) =
      (isFirst c && startsWith isSecond t || hasPair isFirst isSecond t) := by
  cases t <;> simp [hasPair, startsWith]

theorem isBlank_of_isBreak (h : isBreak c = true) : isBlank c = false := by
  simp only [isBreak, Bool.or_eq_true, beq_iff_eq] at h
  rcases h with (rfl | rfl) | rfl <;> decide

theorem atGap_append_break (t rest : Text) : atGap (t ++ '\n' :: rest) = atGap t := by
  cases t <;> rfl

/-! ### Plain scalars -/

/-- A plain scalar ends with its line, if the next line is not indented. -/
theorem plain?_line (h : StartsLine rest) (p : Place) :
    plain? false 1 p .empty ('\n' :: rest) = some ([], true, ⟨p.nextLine, rest⟩) := by
  cases rest with
  | nil => rfl
  | cons c rest =>
    obtain ⟨hblank, hbreak⟩ := h c rfl
    have hnewline : isBreak '\n' = true := rfl
    have hmargin : endsPlainAfterGap false 1 p.nextLine (c :: rest) = true := by
      simp [endsPlainAfterGap, Place.nextLine]
    simp only [plain?, hnewline, hbreak, hblank, hmargin, if_true]
    rfl

/-- A blank joins those that have been read. -/
theorem plain?_blank (h : isBlank c = true) (p : Place) (s : Text) :
    plain? false 1 p (.blanks s) (c :: rest) =
      plain? false 1 p.next (.blanks (s ++ [c])) rest := by
  have hbreak : isBreak c = false := Bool.eq_false_iff.2 fun hbreak =>
    Bool.false_ne_true ((isBlank_of_isBreak hbreak).symm.trans h)
  simp [plain?, h, hbreak, Gap.hasBreak, Gap.addBlank]

/-- A character that does not end the scalar is taken, behind the blanks that have been read. -/
theorem plain?_content {s : Text} (hp : 0 < p.column) (hblank : isBlank c = false)
    (hbreak : isBreak c = false) (hcolon : (c == ':' && atGap rest) = false)
    (hcomment : (c == '#' && !s.isEmpty) = false) :
    plain? false 1 p (.blanks s) (c :: rest) =
      withText s (withChar c (plain? false 1 p.next .empty rest)) := by
  have hend : endsPlain false c rest = false := by
    rw [endsPlain, hcolon]
    rfl
  have hcontinues : (!(Gap.blanks s).isEmpty &&
      endsPlainAfterGap false 1 p (c :: rest)) = false := by
    have hmargin : ¬ p.column < 1 := Nat.not_lt.2 hp
    cases s with
    | nil => rfl
    | cons a s =>
      simp only [List.isEmpty_cons, Bool.not_false, Bool.and_true] at hcomment
      simp [endsPlainAfterGap, startsWith, hcomment, hmargin, hp.ne']
  simp only [plain?, hbreak, hblank, hcontinues, hend, Bool.false_and, Bool.false_eq_true, if_false]
  rfl

/-- **A plain scalar is read back**, behind the blanks that have been read. -/
theorem plain?_append (hrest : StartsLine rest) : ∀ {t s : Text} {p : Place}, 0 < p.column →
    (∀ c ∈ t, isPrintable c = true ∧ isBreak c = false) → hasStructure (!s.isEmpty) t = false →
    (t = [] → s = []) → t.getLast? ≠ some ' ' →
    plain? false 1 p (.blanks s) (t ++ '\n' :: rest) =
      some (s ++ t, true, ⟨⟨p.line + 1, 0⟩, rest⟩) := by
  intro t
  induction t with
  | nil =>
    intro s p _ _ _ hs _
    obtain rfl := hs rfl
    exact plain?_line hrest p
  | cons c t ih =>
    intro s p hp hchars hstructure _ hlast
    obtain ⟨⟨hprintable, hbreak⟩, ht⟩ := List.forall_mem_cons.1 hchars
    have hcolumn : 0 < p.next.column := Nat.succ_pos p.column
    have hlastrest : t.getLast? ≠ some ' ' := fun h => hlast (by simp [List.getLast?_cons, h])
    rw [hasStructure, Bool.or_eq_false_iff, Bool.or_eq_false_iff, hbreak, Bool.or_false]
      at hstructure
    obtain ⟨⟨hcolon, hcomment⟩, hstructure⟩ := hstructure
    rw [List.cons_append]
    by_cases hblank : isBlank c = true
    · obtain rfl := eq_space_of_isBlank hprintable hblank
      have hnonempty : t ≠ [] := by
        rintro rfl
        exact hlast rfl
      have hgap : (!(s ++ [' ']).isEmpty) = isBlank ' ' := by cases s <;> rfl
      rw [plain?_blank hblank,
        ih hcolumn ht (hgap ▸ hstructure) (fun h => absurd h hnonempty) hlastrest]
      simp [Place.next, Place.advance]
    · have hblank := Bool.eq_false_iff.2 hblank
      rw [← atGap_append_break t rest] at hcolon
      rw [hblank] at hstructure
      have hread := ih (s := []) hcolumn ht hstructure (fun _ => rfl) hlastrest
      rw [plain?_content hp hblank hbreak hcolon hcomment]
      exact congrArg (fun result => withText s (withChar c result)) hread

/-- What looks plain has no structure from its first character on. -/
theorem hasStructure_of_looksPlain (hprintable : ∀ c ∈ t, isPrintable c = true)
    (h : looksPlain t = true) : hasStructure false t = false := by
  cases t with
  | nil => rfl
  | cons c t =>
    simp only [looksPlain, Bool.and_eq_true, Bool.not_eq_true', bne_iff_ne, List.head?_cons, ne_eq,
      Option.some.injEq, List.drop_one, List.tail_cons, List.any_cons, Bool.or_eq_false_iff] at h
    obtain ⟨⟨⟨⟨hstart, hstructure⟩, hbreak, -⟩, hspace⟩, -⟩ := h
    have hblank : isBlank c = false := Bool.eq_false_iff.2 fun hblank =>
      hspace (eq_space_of_isBlank (hprintable c List.mem_cons_self) hblank)
    have hcolon : (c == ':' && atGap t) = false := by
      refine Bool.eq_false_iff.2 fun hcolon => ?_
      obtain ⟨hc, hgap⟩ := Bool.and_eq_true_iff.1 hcolon
      simp [startsStructure, hc, hgap] at hstart
    rw [hasStructure, hcolon, hblank, hbreak, Bool.and_false]
    exact hstructure

theorem not_isBreak_of_looksPlain (h : looksPlain t = true) : ∀ c ∈ t, isBreak c = false := by
  simp only [looksPlain, Bool.and_eq_true, Bool.not_eq_true', List.any_eq_false] at h
  obtain ⟨⟨⟨-, hbreak⟩, -⟩, -⟩ := h
  exact fun c hc => Bool.eq_false_iff.2 (hbreak c hc)

/-- **A text that looks plain is read back.** -/
theorem plain?_of_looksPlain (hprintable : ∀ c ∈ t, isPrintable c = true)
    (h : looksPlain t = true) (hrest : StartsLine rest) (hp : 0 < p.column) :
    plain? false 1 p .empty (t ++ '\n' :: rest) =
      some (t, true, ⟨⟨p.line + 1, 0⟩, rest⟩) := by
  have hstructure := hasStructure_of_looksPlain hprintable h
  have hchars : ∀ c ∈ t, isPrintable c = true ∧ isBreak c = false := fun c hc =>
    ⟨hprintable c hc, not_isBreak_of_looksPlain h c hc⟩
  simp only [looksPlain, Bool.and_eq_true, bne_iff_ne] at h
  exact plain?_append hrest hp hchars hstructure (fun _ => rfl) h.2

/-- A word of letters is read up to the colon behind it. -/
theorem plain?_word (margin : Nat) (rest : Text) : ∀ {t : Text} (p : Place),
    (∀ c ∈ t, c.isAlpha = true) →
    plain? false margin p .empty (t ++ ':' :: ' ' :: rest) =
      some (t, false, ⟨p.advance t.length, ':' :: ' ' :: rest⟩) := by
  intro t
  induction t with
  | nil => intro p _; rfl
  | cons c t ih =>
    intro p h
    obtain ⟨hc, ht⟩ := List.forall_mem_cons.1 h
    have hcolon : (c == ':') = false := beq_eq_false_iff_ne.2 (Text.ne_of_test hc rfl)
    have hgap : (Gap.empty).isEmpty = true := rfl
    simp only [List.cons_append, plain?, isBreak_of_isAlpha hc, isBlank_of_isAlpha hc, hgap,
      endsPlain, hcolon, Bool.false_and, Bool.not_true, Bool.or_self, Bool.false_eq_true, if_false,
      ih p.next ht]
    have hadvance : p.next.advance t.length = p.advance (t.length + 1) := by
      simp [Place.next, Place.advance, Nat.add_assoc, Nat.add_comm 1]
    rw [hadvance]
    rfl

/-! ### Single quotes -/

section Single

variable {g : Gap}

theorem single?_blank (h : isBlank c = true) :
    single? p g (c :: rest) = single? p.next (g.addBlank c) rest := by
  rw [single?.eq_def]
  simp [h]

theorem single?_break (h : isBreak c = true) :
    single? p g (c :: rest) = single? p.nextLine (g.addBreak c) rest := by
  rw [single?.eq_def]
  simp [h, isBlank_of_isBreak h]

theorem single?_close (hp : 0 < p.column) :
    single? p g ('\'' :: '\n' :: rest) = some (g.text, ⟨p.next, '\n' :: rest⟩) := by
  rw [single?.eq_def]
  simp [isBlank, isBreak, hp.ne']

/-- A character on a line, behind a gap. -/
theorem single?_singleChar (hp : 0 < p.column) (hblank : isBlank c = false)
    (hbreak : isBreak c = false) : ∃ q : Place, 0 < q.column ∧
      single? p g (singleChar c ++ t) = withText g.text (withChar c (single? q .empty t)) := by
  by_cases hquote : c = '\''
  · subst hquote
    refine ⟨p.advance 2, Nat.succ_pos _, ?_⟩
    simp [singleChar, single?, isBlank, isBreak, hp.ne']
  · refine ⟨p.next, Nat.succ_pos _, ?_⟩
    rw [singleChar, if_neg hquote, List.singleton_append, single?.eq_def]
    simp [hblank, hbreak, hp.ne', hquote]

end Single

/-- The closing quote and the end of its line, with the indentation in front if a line of the text
has just ended. -/
def singleEnd (afterBreak : Bool) (t rest : Text) : Text :=
  (if (t.getLast?.map isBreak).getD afterBreak then indentation else []) ++ '\'' :: '\n' :: rest

theorem singleEnd_cons (afterBreak : Bool) (c : Char) (t rest : Text) :
    singleEnd afterBreak (c :: t) rest = singleEnd (isBreak c) t rest := by
  cases t with
  | nil => rfl
  | cons d t => simp [singleEnd, List.getLast?_cons]

/-- Blanks are dropped behind a line end. -/
theorem single?_indentation (l : Nat) (first : Option Char) (more t : Text) :
    single? ⟨l, 0⟩ (.breaks first more) (indentation ++ t) =
      single? ⟨l, 2⟩ (.breaks first more) t :=
  (single?_blank rfl).trans (single?_blank rfl)

/-- The rest of a text between single quotes is read back behind blanks on a line. -/
def SingleOnLine (rest t : Text) : Prop :=
  ∀ (p : Place) (s : Text), 0 < p.column → (s ≠ [] → startsWith isBreak t = false) →
    ∃ q, single? p (.blanks s) (indentLines false singleChar t ++ singleEnd false t rest) =
      some (s ++ t, ⟨q, '\n' :: rest⟩)

/-- The rest of a text between single quotes is read back behind line ends. -/
def SingleBehindBreak (rest t : Text) : Prop :=
  ∀ (l : Nat) (first : Char) (more : Text), first ≠ '\n' → startsWith (· == ' ') t = false →
    ∃ q, single? ⟨l, 0⟩ (.breaks (some first) more)
        (indentLines true singleChar t ++ singleEnd true t rest) =
      some (first :: more ++ t, ⟨q, '\n' :: rest⟩)

section Lines

variable {l : Nat} {first : Char} {more : Text}

theorem singleOnLine_nil (rest : Text) : SingleOnLine rest [] := fun p s hp _ => by
  rw [List.append_nil]
  exact ⟨p.next, single?_close hp⟩

theorem text_breaks (h : first ≠ '\n') : (Gap.breaks (some first) more).text = first :: more :=
  if_pos h

theorem singleBehindBreak_nil (rest : Text) : SingleBehindBreak rest [] :=
  fun l first more hfirst _ => by
    rw [List.append_nil, ← text_breaks hfirst]
    exact ⟨⟨l, 3⟩,
      (single?_indentation l (some first) more _).trans (single?_close (Nat.succ_pos 1))⟩

/-- The first line end goes to the margin. -/
theorem SingleBehindBreak.singleOnLine_cons (h : SingleBehindBreak rest t)
    (hbreak : isBreak c = true) (hline : c ≠ '\n') (hspace : startsWith (· == ' ') t = false) :
    SingleOnLine rest (c :: t) := by
  intro p s _ hs
  obtain rfl : s = [] := by
    by_contra hne
    exact Bool.false_ne_true ((hs hne).symm.trans hbreak)
  obtain ⟨q, hread⟩ := h (p.line + 1) c [] hline hspace
  rw [singleEnd_cons, hbreak, indentLines_of_isBreak hbreak]
  exact ⟨q, (single?_break hbreak).trans hread⟩

theorem SingleBehindBreak.cons (h : SingleBehindBreak rest t) (hbreak : isBreak c = true)
    (hspace : startsWith (· == ' ') t = false) : SingleBehindBreak rest (c :: t) := by
  intro l first more hfirst _
  obtain ⟨q, hread⟩ := h (l + 1) first (more ++ [c]) hfirst hspace
  rw [singleEnd_cons, hbreak, indentLines_of_isBreak hbreak]
  refine ⟨q, (single?_break hbreak).trans (hread.trans ?_)⟩
  simp

theorem SingleOnLine.cons_blank (h : SingleOnLine rest t) (hblank : isBlank c = true)
    (hbreak : isBreak c = false) (hline : startsWith isBreak t = false) :
    SingleOnLine rest (c :: t) := by
  intro p s hp _
  have hchar : singleChar c = [c] := if_neg (by rintro rfl; cases hblank)
  obtain ⟨q, hread⟩ := h p.next (s ++ [c]) (Nat.succ_pos _) fun _ => hline
  rw [singleEnd_cons, hbreak, indentLines_of_not_isBreak hbreak, if_neg Bool.false_ne_true,
    List.nil_append, hchar]
  refine ⟨q, (single?_blank hblank).trans (hread.trans ?_)⟩
  simp

/-- A character that is no blank ends any gap. -/
theorem SingleOnLine.exists_content (h : SingleOnLine rest t) (hp : 0 < p.column) (g : Gap)
    (hblank : isBlank c = false) (hbreak : isBreak c = false) :
    ∃ q, single? p g (singleChar c ++
        (indentLines false singleChar t ++ singleEnd false t rest)) =
      some (g.text ++ c :: t, ⟨q, '\n' :: rest⟩) := by
  obtain ⟨q, hq, hstep⟩ := single?_singleChar hp hblank hbreak
  obtain ⟨q', hread⟩ := h q [] hq fun hne => absurd rfl hne
  exact ⟨q', hstep.trans (congrArg (fun result => withText g.text (withChar c result)) hread)⟩

theorem SingleOnLine.cons (h : SingleOnLine rest t) (hblank : isBlank c = false)
    (hbreak : isBreak c = false) : SingleOnLine rest (c :: t) := by
  intro p s hp _
  rw [singleEnd_cons, hbreak, indentLines_of_not_isBreak hbreak, if_neg Bool.false_ne_true,
    List.nil_append, List.append_assoc]
  exact h.exists_content hp (.blanks s) hblank hbreak

theorem SingleOnLine.singleBehindBreak_cons (h : SingleOnLine rest t) (hblank : isBlank c = false)
    (hbreak : isBreak c = false) : SingleBehindBreak rest (c :: t) := by
  intro l first more hfirst _
  obtain ⟨q, hread⟩ :=
    h.exists_content (p := ⟨l, 2⟩) (Nat.succ_pos 1) (.breaks (some first) more) hblank hbreak
  rw [singleEnd_cons, hbreak, indentLines_of_not_isBreak hbreak, if_pos rfl, List.append_assoc,
    List.append_assoc, single?_indentation, hread, text_breaks hfirst]
  exact ⟨q, rfl⟩

end Lines

/-- **The body of a text between single quotes is read back**, both behind blanks on a line and
behind line ends, by induction on the text: a separator goes to the margin, all else to the line. -/
theorem single?_indentLines (rest : Text) : ∀ {t : Text},
    (∀ c ∈ t, isPrintable c = true) → '\n' ∉ t → hasPair (· == ' ') isBreak t = false →
    hasPair isBreak (· == ' ') t = false → SingleOnLine rest t ∧ SingleBehindBreak rest t := by
  intro t
  induction t with
  | nil => exact fun _ _ _ _ => ⟨singleOnLine_nil rest, singleBehindBreak_nil rest⟩
  | cons c t ih =>
    intro hprintable hline hspaces hbreaks
    obtain ⟨hc, ht⟩ := List.forall_mem_cons.1 hprintable
    obtain ⟨hnewline, hlines⟩ := List.ne_and_not_mem_of_not_mem_cons hline
    rw [hasPair_cons, Bool.or_eq_false_iff] at hspaces hbreaks
    obtain ⟨onLine, behindBreak⟩ := ih ht hlines hspaces.2 hbreaks.2
    by_cases hbreak : isBreak c = true
    · have hspace : startsWith (· == ' ') t = false := by
        rw [hbreak, Bool.true_and] at hbreaks
        exact hbreaks.1
      exact ⟨behindBreak.singleOnLine_cons hbreak hnewline.symm hspace,
        behindBreak.cons hbreak hspace⟩
    · have hbreak := Bool.eq_false_iff.2 hbreak
      by_cases hblank : isBlank c = true
      · obtain rfl := eq_space_of_isBlank hc hblank
        refine ⟨onLine.cons_blank hblank hbreak hspaces.1, fun l first more _ hstart => ?_⟩
        cases hstart
      · have hblank := Bool.eq_false_iff.2 hblank
        exact ⟨onLine.cons hblank hbreak, onLine.singleBehindBreak_cons hblank hbreak⟩

/-- **A text between single quotes is read back.** -/
theorem single?_renderSingle (hescapes : needsEscapes t = false) (hline : '\n' ∉ t)
    (hbreaks : hasPair isBreak (· == ' ') t = false) (hp : 0 < p.column) (rest : Text) :
    ∃ body q, renderSingle t ++ '\n' :: rest = '\'' :: body ∧
      single? p .empty body = some (t, ⟨q, '\n' :: rest⟩) := by
  have hprintable := isPrintable_of_not_needsEscapes hescapes
  have hspaces : hasPair (· == ' ') isBreak t = false := (Bool.or_eq_false_iff.1 hescapes).2
  obtain ⟨onLine, -⟩ := single?_indentLines rest hprintable hline hspaces hbreaks
  obtain ⟨q, hread⟩ := onLine p [] hp fun h => absurd rfl h
  refine ⟨_, q, ?_, hread⟩
  simp [renderSingle, singleEnd]

/-! ### Double quotes -/

/-- The digits of a code point complete its escape. -/
theorem double?_of_spells {left value : Nat} {ds : Text} (h : Escape.Spells c left value ds) :
    ∀ {p : Place} {g : Gap}, double? p g (some (.digits left value)) (ds ++ rest) =
      withChar c (double? (p.advance ds.length) .empty none rest) := by
  induction h with
  | last h =>
    intro p g
    simp only [List.singleton_append, double?, h]
    rfl
  | more h _ ih =>
    intro p g
    simp only [List.cons_append, double?, h, ih]
    simp [Place.next, Place.advance, Nat.add_assoc, Nat.add_comm 1]

/-- A backslash ends a gap. -/
theorem double?_backslash {g : Gap} (hp : 0 < p.column) :
    double? p g none ('\\' :: rest) =
      withText g.text (double? p.next .empty (some .opened) rest) := by
  simp [double?, isBlank, isBreak, hp.ne']

/-- The escape of a code point is read as its character. -/
theorem double?_digits {d : Char} {n : Nat} {ds : Text} (hp : 0 < p.column) (g : Gap)
    (hletter : escaped? d = none) (hdigits : escapedDigits? d = some n) (hbreak : isBreak d = false)
    (h : Escape.Spells c n 0 ds) : ∃ q : Place, 0 < q.column ∧
      double? p g none ('\\' :: d :: ds ++ rest) =
        withText g.text (withChar c (double? q .empty none rest)) := by
  refine ⟨p.next.next.advance ds.length, Nat.add_pos_left (Nat.succ_pos _) _, ?_⟩
  rw [← double?_of_spells h (g := .empty), List.cons_append, double?_backslash hp]
  simp [double?, hletter, hdigits, hbreak]

/-- What stands for a character is read as the character, behind a gap. -/
theorem double?_of_escaped {s : Text} (h : Escaped c s) (hp : 0 < p.column) (hspace : c ≠ ' ')
    (g : Gap) : ∃ q : Place, 0 < q.column ∧
      double? p g none (s ++ rest) = withText g.text (withChar c (double? q .empty none rest)) := by
  cases h with
  | @letter d h _ hbreak =>
    refine ⟨p.next.next, Nat.succ_pos _, ?_⟩
    rw [List.cons_append, double?_backslash hp]
    simp [double?, h, hbreak]
  | twoDigits h => exact double?_digits hp g rfl rfl rfl (Escape.spells_fixedHex h)
  | fourDigits h => exact double?_digits hp g rfl rfl rfl (Escape.spells_fixedHex h)
  | itself h hbreak hquote hbackslash =>
    have hblank : isBlank c = false :=
      Bool.eq_false_iff.2 fun hblank => hspace (eq_space_of_isBlank h hblank)
    refine ⟨p.next, Nat.succ_pos _, ?_⟩
    simp [double?, hblank, hbreak, hquote, hbackslash, hp.ne']

/-- **The body of a text between double quotes is read back**, behind blanks. -/
theorem double?_flatMap_doubleChar (rest : Text) : ∀ {t : Text} (p : Place) (s : Text),
    0 < p.column → ∃ q, double? p (.blanks s) none (t.flatMap doubleChar ++ '"' :: rest) =
      some (s ++ t, ⟨q, rest⟩) := by
  intro t
  induction t with
  | nil =>
    intro p s hp
    refine ⟨p.next, ?_⟩
    simp [double?, isBlank, isBreak, hp.ne', Gap.text]
  | cons c t ih =>
    intro p s hp
    rw [List.flatMap_cons, List.append_assoc]
    by_cases hspace : c = ' '
    · subst hspace
      obtain ⟨q, hread⟩ := ih p.next (s ++ [' ']) (Nat.succ_pos _)
      refine ⟨q, Eq.trans ?_ (hread.trans (by simp))⟩
      simp [doubleChar, isPrintable, double?, isBlank, Gap.addBlank]
    · obtain ⟨q, hq, hstep⟩ := double?_of_escaped (escaped_doubleChar c) hp hspace (.blanks s)
      obtain ⟨q', hread⟩ := ih q [] hq
      exact ⟨q', hstep.trans (congrArg (fun r => withText s (withChar c r)) hread)⟩

/-- **A text between double quotes is read back.** -/
theorem double?_renderDouble (hp : 0 < p.column) (t rest : Text) :
    ∃ body q, renderDouble t ++ rest = '"' :: body ∧
      double? p .empty none body = some (t, ⟨q, rest⟩) := by
  obtain ⟨q, hread⟩ := double?_flatMap_doubleChar rest p [] hp
  exact ⟨_, q, by simp [renderDouble], hread⟩

end CipherRules.Yaml
