import CipherRules.Proofs.Yaml.Flow
import CipherRules.Yaml.Block
import Mathlib.Data.List.Basic

/-!
# YAML — Literal blocks read back

A text of several lines that is written as a literal block is read back with all its line ends
(`block?_renderLiteral`).  Between lines they are kept anyway.  Behind the last line the chomping
decides, and the indicator that is written suits the text: `Suits` says what the reader has to have
in hand at the end (`suits_chompingOf`).
-/

namespace CipherRules.Yaml

open Text (withChar withText)

variable {c : Char} {t rest : Text} {kind : Chomping} {state : BlockState}

/-! ### Chomping -/

namespace BlockState

/-- Where the reading stands behind a character of the text. -/
def after : BlockState → Char → BlockState
  | .margin s, c => if isBreak c then .margin ⟨s.first, s.more ++ [c]⟩ else .line
  | .line, c => if isBreak c then .margin ⟨[c], []⟩ else .line

theorem after_of_not_isBreak (h : isBreak c = false) : state.after c = .line := by
  cases state <;> simp [after, h]

theorem exists_after_of_isBreak (h : isBreak c = true) : ∃ s, state.after c = .margin s := by
  cases state <;> simp [after, h]

end BlockState

/-- At the end of a text the chomping keeps the line ends in hand; if there are none, the one that
ends the last line is dropped. -/
def Suits (kind : Chomping) (state : BlockState) (t : Text) : Prop :=
  match t.foldl BlockState.after state with
  | .margin s => s.tail kind = s.first ++ s.more
  | .line => kind = .strip

theorem suits_cons_of_not_isBreak (h : isBreak c = false) :
    Suits kind state (c :: t) ↔ Suits kind .line t := by
  have hstate : state.after c = .line := BlockState.after_of_not_isBreak h
  rw [← hstate]
  rfl

theorem suits_line_cons_of_isBreak (h : isBreak c = true) :
    Suits kind .line (c :: t) ↔ Suits kind (.margin ⟨[c], []⟩) t := by
  have hstate : BlockState.line.after c = .margin ⟨[c], []⟩ := if_pos h
  rw [← hstate]
  rfl

theorem suits_margin_cons_of_isBreak (h : isBreak c = true) {s : Spacing} :
    Suits kind (.margin s) (c :: t) ↔ Suits kind (.margin ⟨s.first, s.more ++ [c]⟩) t := by
  have hstate : (BlockState.margin s).after c = .margin ⟨s.first, s.more ++ [c]⟩ := if_pos h
  rw [← hstate]
  rfl

/-- The indicator of a chomping; there is none for the usual one. -/
def Chomping.indicator : Chomping → Text
  | .strip => ['-']
  | .clip => []
  | .keep => ['+']

/-- **The indicator that is written suits the text.** -/
theorem suits_chompingOf (state : BlockState) (h : t ≠ []) :
    ∃ kind : Chomping, chompingOf t = kind.indicator ∧ Suits kind state t := by
  obtain ⟨c, rest, hreverse⟩ := List.exists_cons_of_ne_nil (mt List.reverse_eq_nil_iff.1 h)
  have ht : t = rest.reverse ++ [c] := by
    rw [← List.reverse_cons, ← hreverse, List.reverse_reverse]
  have hstate : t.foldl BlockState.after state =
      (rest.reverse.foldl BlockState.after state).after c := by
    rw [ht, List.foldl_append]
    rfl
  simp only [chompingOf, hreverse, Suits, hstate]
  by_cases hbreak : isBreak c = true
  · -- a single line end behind a line needs no indicator
    by_cases hline : ∃ d before, rest = d :: before ∧ isBreak d = false
    · obtain ⟨d, before, rfl, hd⟩ := hline
      refine ⟨.clip, by simp [hbreak, hd, startsWith, Chomping.indicator], ?_⟩
      rw [List.reverse_cons, List.foldl_append, List.foldl_cons, List.foldl_nil,
        BlockState.after_of_not_isBreak hd]
      simp [BlockState.after, hbreak, Spacing.tail]
    · obtain ⟨s, hs⟩ :=
        (rest.reverse.foldl BlockState.after state).exists_after_of_isBreak hbreak
      refine ⟨.keep, ?_, by rw [hs]; rfl⟩
      have hmore : (startsWith isBreak rest || rest.isEmpty) = true := by
        cases rest with
        | nil => rfl
        | cons d before =>
          have hd : isBreak d = true := by
            by_contra hd
            exact hline ⟨d, before, rfl, Bool.eq_false_iff.2 hd⟩
          simp [startsWith, hd]
      simp [hbreak, hmore, Chomping.indicator]
  · have hbreak := Bool.eq_false_iff.2 hbreak
    rw [BlockState.after_of_not_isBreak hbreak]
    exact ⟨.strip, by simp [hbreak, Chomping.indicator], rfl⟩

/-! ### Lines -/

/-- The line end that is missing behind a text, given whether a line has just ended before it. -/
def missingEnd (afterBreak : Bool) (t : Text) : Text :=
  if (t.getLast?.map isBreak).getD afterBreak then [] else ['\n']

theorem missingEnd_cons (afterBreak : Bool) (c : Char) (t : Text) :
    missingEnd afterBreak (c :: t) = missingEnd (isBreak c) t := by
  cases t with
  | nil => rfl
  | cons d t => simp [missingEnd, List.getLast?_cons]

theorem endLine_eq (t : Text) : endLine t = t ++ missingEnd false t := by
  rw [endLine, missingEnd]
  split
  · rw [List.append_nil]
  · rfl

/-- What is missing behind a text depends on its last character. -/
theorem missingEnd_append {u : Text} (h : u ≠ []) (t : Text) (afterBreak afterBreak' : Bool) :
    missingEnd afterBreak (t ++ u) = missingEnd afterBreak' u := by
  rw [missingEnd, missingEnd, List.getLast?_append_of_ne_nil t h, List.getLast?_eq_some_getLast h]
  rfl

/-- The last character of lines is that of the text. -/
theorem getLast?_indentLines : ∀ {t : Text} {afterBreak : Bool},
    (indentLines afterBreak (fun c => [c]) t).getLast? = t.getLast? := by
  intro t
  induction t with
  | nil => intro afterBreak; rfl
  | cons c t ih =>
    intro afterBreak
    by_cases hbreak : isBreak c = true
    · rw [indentLines_of_isBreak hbreak, List.getLast?_cons, List.getLast?_cons, ih]
    · rw [indentLines_of_not_isBreak (Bool.eq_false_iff.2 hbreak), List.singleton_append,
        List.getLast?_append_of_ne_nil _ (List.cons_ne_nil c _), List.getLast?_cons,
        List.getLast?_cons, ih]

section Lines

variable {isFolded onBlank : Bool} {p : Place}

/-- A line that is not indented is none of the block. -/
theorem blockLines?_end (hrest : StartsLine rest) (l : Nat) (s : Spacing) :
    blockLines? isFolded kind 2 ⟨l, 0⟩ (.margin s) onBlank rest =
      some (s.tail kind, ⟨⟨l, 0⟩, rest⟩) := by
  cases rest with
  | nil => rfl
  | cons c rest =>
    obtain ⟨hblank, hbreak⟩ := hrest c rfl
    rw [isBlank, Bool.or_eq_false_iff] at hblank
    simp [blockLines?, hblank, hbreak]

/-- A line end within a line goes to the margin of the next. -/
theorem blockLines?_endLine (h : isBreak c = true) (p : Place) (onBlank : Bool) :
    blockLines? isFolded kind 2 p .line onBlank (c :: rest) =
      blockLines? isFolded kind 2 ⟨p.line + 1, 0⟩ (.margin ⟨[c], []⟩) onBlank rest := by
  rw [blockLines?, if_pos h]
  rfl

theorem blockLines?_content (h : isBreak c = false) (p : Place) (onBlank : Bool) :
    blockLines? isFolded kind 2 p .line onBlank (c :: rest) =
      withChar c (blockLines? isFolded kind 2 p.next .line onBlank rest) := by
  rw [blockLines?, if_neg (Bool.eq_false_iff.1 h)]

/-- A line end at the margin ends an empty line. -/
theorem blockLines?_emptyLine (h : isBreak c = true) (l : Nat) (s : Spacing) :
    blockLines? isFolded kind 2 ⟨l, 0⟩ (.margin s) onBlank (c :: rest) =
      blockLines? isFolded kind 2 ⟨l + 1, 0⟩ (.margin ⟨s.first, s.more ++ [c]⟩) onBlank rest := by
  have hblank := isBlank_of_isBreak h
  rw [isBlank, Bool.or_eq_false_iff] at hblank
  simp [blockLines?, hblank, h, Place.nextLine]

/-- Behind its indentation a line begins with whatever it begins with. -/
theorem blockLines?_indentation (h : isBreak c = false) (l : Nat) (s : Spacing) :
    blockLines? false kind 2 ⟨l, 0⟩ (.margin s) onBlank (indentation ++ c :: rest) =
      withText (s.first ++ s.more)
        (withChar c (blockLines? false kind 2 ⟨l, 3⟩ .line (isBlank c) rest)) := by
  simp [indentation, blockLines?, h, Place.next, Place.advance, Spacing.text]

/-- **The lines of a literal block are read back**, from within a line and from its margin. -/
theorem blockLines?_indentLines (hrest : StartsLine rest) : ∀ {t : Text},
    (∀ (p : Place) (onBlank : Bool), Suits kind .line t →
      ∃ l, blockLines? false kind 2 p .line onBlank
          (indentLines false (fun c => [c]) t ++ (missingEnd false t ++ rest)) =
        some (t, ⟨⟨l, 0⟩, rest⟩)) ∧
    ∀ (l : Nat) (s : Spacing) (onBlank : Bool), Suits kind (.margin s) t →
      ∃ l', blockLines? false kind 2 ⟨l, 0⟩ (.margin s) onBlank
          (indentLines true (fun c => [c]) t ++ (missingEnd true t ++ rest)) =
        some (s.first ++ s.more ++ t, ⟨⟨l', 0⟩, rest⟩) := by
  intro t
  induction t with
  | nil =>
    refine ⟨fun p onBlank h => ⟨p.line + 1, ?_⟩, fun l s onBlank h => ⟨l, ?_⟩⟩
    · obtain rfl : kind = .strip := h
      exact blockLines?_end hrest (p.line + 1) ⟨['\n'], []⟩
    · have htail : s.tail kind = s.first ++ s.more := h
      rw [List.append_nil, ← htail]
      exact blockLines?_end hrest l s
  | cons c t ih =>
    obtain ⟨onLine, onMargin⟩ := ih
    rw [missingEnd_cons, missingEnd_cons]
    by_cases hbreak : isBreak c = true
    · rw [indentLines_of_isBreak hbreak, indentLines_of_isBreak hbreak, hbreak]
      refine ⟨fun p onBlank h => ?_, fun l s onBlank h => ?_⟩
      · obtain ⟨l, hread⟩ :=
          onMargin (p.line + 1) ⟨[c], []⟩ onBlank ((suits_line_cons_of_isBreak hbreak).1 h)
        exact ⟨l, (blockLines?_endLine hbreak p onBlank).trans hread⟩
      · obtain ⟨l', hread⟩ := onMargin (l + 1) ⟨s.first, s.more ++ [c]⟩ onBlank
          ((suits_margin_cons_of_isBreak hbreak).1 h)
        refine ⟨l', ?_⟩
        rw [List.cons_append, blockLines?_emptyLine hbreak, hread]
        simp
    · have hbreak := Bool.eq_false_iff.2 hbreak
      rw [indentLines_of_not_isBreak hbreak, indentLines_of_not_isBreak hbreak, hbreak, if_pos rfl,
        if_neg Bool.false_ne_true, List.nil_append]
      refine ⟨fun p onBlank h => ?_, fun l s onBlank h => ?_⟩
      · obtain ⟨l, hread⟩ := onLine p.next onBlank ((suits_cons_of_not_isBreak hbreak).1 h)
        refine ⟨l, ?_⟩
        rw [List.singleton_append, List.cons_append, blockLines?_content hbreak, hread]
        rfl
      · obtain ⟨l', hread⟩ := onLine ⟨l, 3⟩ (isBlank c) ((suits_cons_of_not_isBreak hbreak).1 h)
        refine ⟨l', ?_⟩
        rw [List.append_assoc, List.singleton_append, List.cons_append,
          blockLines?_indentation hbreak, hread]
        rfl

end Lines

/-! ### Headers -/

/-- The indicators of a block are read up to the end of their line. -/
theorem blockHeader?_append (t : Text) (kind : Chomping) (body : Text) :
    blockHeader? (indentationOf t ++ (kind.indicator ++ '\n' :: body)) =
      some (⟨kind, if startsWith (fun c => c == ' ' || isBreak c) t then some 2 else none⟩,
        '\n' :: body) := by
  rw [indentationOf]
  split <;> cases kind <;> rfl

/-- The first line shows the indentation, if it begins with neither a blank nor a line end. -/
theorem firstIndentation?_indentLines (hprintable : ∀ c ∈ t, isPrintable c = true) (h : t ≠ [])
    (hstart : startsWith (fun c => c == ' ' || isBreak c) t = false) (rest : Text) :
    firstIndentation? 0 0 (indentLines true (fun c => [c]) t ++ rest) = some 2 := by
  cases t with
  | nil => exact absurd rfl h
  | cons c t =>
    simp only [startsWith, Bool.or_eq_false_iff, beq_eq_false_iff_ne] at hstart
    have htab : c ≠ '\t' := Text.ne_of_test (hprintable c List.mem_cons_self) (by decide)
    rw [indentLines_of_not_isBreak hstart.2]
    simp [indentation, firstIndentation?, hstart, htab]

/-- **A text of several lines is read back from its literal block.** -/
theorem block?_renderLiteral (hescapes : needsEscapes t = false) (h : t ≠ [])
    (hrest : StartsLine rest) (p : Place) :
    ∃ body l, renderLiteral t ++ (missingEnd true t ++ rest) = '|' :: body ∧
      block? false 1 p body = some (t, ⟨⟨l, 0⟩, rest⟩) := by
  have hprintable := isPrintable_of_not_needsEscapes hescapes
  obtain ⟨kind, hindicator, hsuits⟩ := suits_chompingOf (.margin ⟨[], []⟩) h
  obtain ⟨l, hread⟩ :=
    (blockLines?_indentLines hrest).2 (p.line + 1) ⟨[], []⟩ false hsuits
  refine ⟨indentationOf t ++ (kind.indicator ++
    '\n' :: (indentLines true (fun c => [c]) t ++ (missingEnd true t ++ rest))), l,
    by simp [renderLiteral, hindicator], ?_⟩
  rw [block?, blockHeader?_append]
  by_cases hstart : startsWith (fun c => c == ' ' || isBreak c) t = true
  · rw [if_pos hstart]
    exact hread
  · have hfirst := firstIndentation?_indentLines hprintable h (Bool.eq_false_iff.2 hstart)
      (missingEnd true t ++ rest)
    rw [if_neg hstart]
    have hmargin : (firstIndentation? 0 0 (indentLines true (fun c => [c]) t ++
        (missingEnd true t ++ rest))).map (fun n => max n (max 1 1)) = some 2 := by
      rw [hfirst]
      rfl
    have hskip : ∀ body : Text, skipBlanksAndComment ('\n' :: body) = '\n' :: body := fun _ => rfl
    have hbreak : isBreak '\n' = true := by decide
    simp only [hskip, hbreak, hmargin]
    exact hread

end CipherRules.Yaml
