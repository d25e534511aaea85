import CipherRules.Text.Blank
import Mathlib.Data.List.TakeWhile

/-!
# Text — Joint texts

Facts about trimming, and about texts joined by a separator.

* `Pads`, `pads_iff`: a trimmed text is what is left between blanks, and has none at its ends.
* `Splits`, `splits_iff`: the pieces of a text are the texts without separator that it joins.
* `byteLength_join_le`, `byteLength_join_perm`: the number of bytes of a joint text is bounded by
  those of the texts, and does not depend on their order.
* `join_append_cons`: what stands around one of the texts of a joint text.
* `utf8`, `utf8_slice`: the bytes of a text, and those of a part of it.
-/

namespace CipherRules.Text

/-- A test tells characters apart. -/
theorem ne_of_test {test : Char → Bool} {c d : Char} (hc : test c = true) (hd : test d = false) :
    c ≠ d := by
  rintro rfl
  rw [hc] at hd
  cases hd

theorem trimRight_eq_self : ∀ {t : Text}, (∀ c ∈ t.getLast?, isAsciiBlank c = false) →
    trimRight t = t
  | [], _ => rfl
  | [c], h => by
      have hc : isAsciiBlank c = false := h c rfl
      simp [trimRight, hc]
  | c :: d :: rest, h => by
      have htail : trimRight (d :: rest) = d :: rest := trimRight_eq_self fun e he => h e he
      rw [trimRight, htail]

/-- A text without a blank at either end is left as it is. -/
theorem trim_eq_self {t : Text} (hhead : ∀ c ∈ t.head?, isAsciiBlank c = false)
    (hlast : ∀ c ∈ t.getLast?, isAsciiBlank c = false) : trim t = t := by
  have hleft : trimLeft t = t := by
    cases t with
    | nil => rfl
    | cons c rest => exact List.dropWhile_cons_of_neg (by simp [hhead c rfl])
  rw [trim, hleft, trimRight_eq_self hlast]

theorem trimRight_eq_nil : ∀ {t : Text}, (∀ c ∈ t, isAsciiBlank c = true) → trimRight t = []
  | [], _ => rfl
  | c :: rest, h => by
      have hc : isAsciiBlank c = true := h c List.mem_cons_self
      have hrest : trimRight rest = [] := trimRight_eq_nil fun d hd => h d (List.mem_cons_of_mem c hd)
      simp [trimRight, hrest, hc]

/-- Blanks at the end do not count. -/
theorem trimRight_append : ∀ {t behind : Text}, (∀ c ∈ behind, isAsciiBlank c = true) →
    trimRight (t ++ behind) = trimRight t
  | [], _, h => trimRight_eq_nil h
  | c :: rest, behind, h => by
      have hrest : trimRight (rest ++ behind) = trimRight rest := trimRight_append h
      rw [List.cons_append, trimRight, trimRight, hrest]

/-- What is trimmed off at the end are blanks. -/
theorem exists_trimRight_append : ∀ t : Text,
    ∃ behind, (∀ c ∈ behind, isAsciiBlank c = true) ∧ trimRight t ++ behind = t
  | [] => ⟨[], by simp, rfl⟩
  | c :: rest => by
      obtain ⟨behind, hblank, hrest⟩ := exists_trimRight_append rest
      rw [trimRight]
      split
      · rename_i hnil
        rw [hnil, List.nil_append] at hrest
        by_cases hc : isAsciiBlank c = true
        · exact ⟨c :: behind, by simpa [hc] using hblank, by simp [hc, hrest]⟩
        · exact ⟨behind, hblank, by simp [hc, hrest]⟩
      · exact ⟨behind, hblank, congrArg (c :: ·) hrest⟩

theorem isAsciiBlank_getLast?_trimRight : ∀ {t : Text}, ∀ c ∈ (trimRight t).getLast?,
    isAsciiBlank c = false
  | [], c, hc => by cases hc
  | d :: rest, c, hc => by
      have hrest : ∀ e ∈ (trimRight rest).getLast?, isAsciiBlank e = false :=
        isAsciiBlank_getLast?_trimRight
      rw [trimRight] at hc
      split at hc
      · split at hc
        · cases hc
        · rename_i hd
          cases hc
          exact Bool.eq_false_iff.2 hd
      · rename_i kept hne
        rw [List.getLast?_cons_of_ne_nil hne] at hc
        exact hrest c hc

theorem isAsciiBlank_head?_trimLeft {t : Text} : ∀ c ∈ (trimLeft t).head?,
    isAsciiBlank c = false := by
  intro c hc
  have hhead := List.head?_dropWhile_not isAsciiBlank t
  rw [trimLeft] at hc
  rw [Option.mem_def.1 hc] at hhead
  simpa using hhead

/-- `t` stands between blanks in `padded`, and none of the blanks is its own. -/
structure Pads (padded t : Text) : Prop where
  exists_blanks : ∃ before behind, (∀ c ∈ before ++ behind, isAsciiBlank c = true) ∧
    padded = before ++ t ++ behind
  no_leading_blank : ∀ c ∈ t.head?, isAsciiBlank c = false
  no_trailing_blank : ∀ c ∈ t.getLast?, isAsciiBlank c = false

theorem pads_trim (padded : Text) : Pads padded (trim padded) where
  exists_blanks := by
    obtain ⟨behind, hbehind, hright⟩ := exists_trimRight_append (trimLeft padded)
    refine ⟨leadingBlanks padded, behind, fun c hc => ?_, ?_⟩
    · rcases List.mem_append.1 hc with hc | hc
      · exact List.mem_takeWhile_imp hc
      · exact hbehind c hc
    · rw [trim, List.append_assoc, hright, leadingBlanks_append_trimLeft]
  no_leading_blank c hc := by
    obtain ⟨behind, -, hright⟩ := exists_trimRight_append (trimLeft padded)
    refine isAsciiBlank_head?_trimLeft (t := padded) c ?_
    obtain ⟨rest, hrest⟩ := List.head?_eq_some_iff.1 hc
    rw [← hright, ← trim, hrest]
    rfl
  no_trailing_blank := isAsciiBlank_getLast?_trimRight

theorem Pads.subset {padded t : Text} (h : Pads padded t) : t ⊆ padded := by
  obtain ⟨before, behind, -, rfl⟩ := h.exists_blanks
  exact fun c hc => List.mem_append_left _ (List.mem_append_right _ hc)

theorem Pads.byteLength_le {padded t : Text} (h : Pads padded t) :
    byteLength t ≤ byteLength padded := by
  obtain ⟨before, behind, -, rfl⟩ := h.exists_blanks
  simp only [byteLength_append]
  omega

/-- Trimming finds the text between the blanks. -/
theorem Pads.eq_trim {padded t : Text} (h : Pads padded t) : t = trim padded := by
  obtain ⟨before, behind, hblank, rfl⟩ := h.exists_blanks
  have hbefore : ∀ c ∈ before, isAsciiBlank c = true := fun c hc =>
    hblank c (List.mem_append_left behind hc)
  have hbehind : ∀ c ∈ behind, isAsciiBlank c = true := fun c hc =>
    hblank c (List.mem_append_right before hc)
  have hleft : trimLeft (before ++ (t ++ behind)) = trimLeft (t ++ behind) :=
    List.dropWhile_append_of_pos hbefore
  rw [trim, List.append_assoc, hleft]
  cases t with
  | nil =>
    have hnil : trimLeft behind = [] := List.dropWhile_eq_nil_iff.2 hbehind
    rw [List.nil_append, hnil]
    rfl
  | cons c rest =>
    have hc : isAsciiBlank c = false := h.no_leading_blank c rfl
    have hkept : trimLeft (c :: rest ++ behind) = c :: rest ++ behind :=
      List.dropWhile_cons_of_neg (by simp [hc])
    rw [hkept, trimRight_append hbehind, trimRight_eq_self h.no_trailing_blank]

theorem pads_iff {padded t : Text} : Pads padded t ↔ t = trim padded :=
  ⟨Pads.eq_trim, fun h => h ▸ pads_trim padded⟩

/-! ### Splitting and joining -/

/-- The parts of a text between its separators. -/
structure Splits (sep : Char) (t : Text) (parts : List Text) : Prop where
  ne_nil : parts ≠ []
  no_separator : ∀ part ∈ parts, sep ∉ part
  join_eq : join [sep] parts = t

/-- A text splits into its pieces, and in no other way. -/
theorem splits_iff {sep : Char} {t : Text} {parts : List Text} :
    Splits sep t parts ↔ parts = pieces sep t := by
  constructor
  · intro h
    rw [← h.join_eq, pieces_join h.ne_nil h.no_separator]
  · rintro rfl
    exact ⟨List.cons_ne_nil _ _, fun _ => not_mem_of_mem_pieces, join_pieces sep t⟩

/-- There is one more piece than separators. -/
theorem length_pieces (sep : Char) (t : Text) : (pieces sep t).length = t.count sep + 1 := by
  induction t with
  | nil => rfl
  | cons c t ih =>
    by_cases hc : c = sep
    · subst hc
      rw [pieces_cons_self, List.length_cons, ih, List.count_cons_self]
    · rw [pieces_cons_of_ne hc, List.count_cons_of_ne hc, ← ih]
      rfl

theorem not_mem_join {c : Char} {glue : Text} (hg : c ∉ glue) : ∀ {ts : List Text},
    (∀ t ∈ ts, c ∉ t) → c ∉ join glue ts
  | [], _ => List.not_mem_nil
  | [t], h => h t (List.mem_singleton_self t)
  | t :: u :: rest, h => by
      have ht : c ∉ t := h t List.mem_cons_self
      have hrest : c ∉ join glue (u :: rest) :=
        not_mem_join hg fun v hv => h v (List.mem_cons_of_mem t hv)
      simp [join_cons_cons, ht, hg, hrest]

theorem join_append_singleton {glue : Text} : ∀ {ws : List Text} {w : Text}, ws ≠ [] →
    join glue (ws ++ [w]) = join glue ws ++ (glue ++ w)
  | [u], w, _ => List.append_assoc u glue w
  | u :: v :: rest, w, _ => by
      have ih : join glue (v :: rest ++ [w]) = join glue (v :: rest) ++ (glue ++ w) :=
        join_append_singleton (List.cons_ne_nil v rest)
      rw [List.cons_append, List.cons_append, join_cons_cons, ← List.cons_append, ih,
        join_cons_cons, List.append_assoc (u ++ glue)]

/-- A joint text without the glue is that of one word. -/
theorem eq_singleton_of_not_mem_join {c : Char} : ∀ {ws : List Text}, ws ≠ [] →
    c ∉ join [c] ws → ws = [join [c] ws]
  | [_], _, _ => rfl
  | _ :: _ :: _, _, h => absurd (by simp [join_cons_cons]) h

theorem not_mem_of_length_pieces_le_one {c : Char} {t : Text} (h : (pieces c t).length ≤ 1) :
    c ∉ t := by
  obtain ⟨piece, hpiece⟩ : ∃ piece, pieces c t = [piece] :=
    List.length_eq_one_iff.1 (Nat.le_antisymm h (Nat.succ_pos _))
  have ht : t = piece := by rw [← join_pieces c t, hpiece]; rfl
  exact ht ▸ not_mem_of_mem_pieces (hpiece ▸ List.mem_singleton_self piece)

/-- Short texts have a short joint text. -/
theorem byteLength_join_le {sep : Char} {n : Nat} : ∀ {ts : List Text},
    (∀ t ∈ ts, byteLength t + sep.utf8Size ≤ n) → byteLength (join [sep] ts) ≤ ts.length * n
  | [], _ => Nat.zero_le _
  | [t], h => by
      have ht : byteLength t + sep.utf8Size ≤ n := h t (List.mem_singleton_self t)
      rw [List.length_singleton, Nat.one_mul]
      exact Nat.le_of_add_right_le ht
  | t :: u :: rest, h => by
      have ht : byteLength t + sep.utf8Size ≤ n := h t List.mem_cons_self
      have hrest : byteLength (join [sep] (u :: rest)) ≤ (u :: rest).length * n :=
        byteLength_join_le fun v hv => h v (List.mem_cons_of_mem t hv)
      rw [join_cons_cons, byteLength_append, byteLength_append, byteLength_cons, byteLength_nil,
        List.length_cons, Nat.succ_mul, Nat.add_comm]
      exact Nat.add_le_add hrest ht

theorem byteLength_perm {s t : Text} (h : s.Perm t) : byteLength s = byteLength t := by
  induction h with
  | nil => rfl
  | cons c _ ih => rw [byteLength_cons, byteLength_cons, ih]
  | swap c d t => exact Nat.add_left_comm _ _ _
  | trans _ _ ih₁ ih₂ => exact ih₁.trans ih₂

/-- A joint text with a separator behind it: each text has one behind it. -/
theorem join_append_sep {sep : Char} : ∀ {ts : List Text}, ts ≠ [] →
    join [sep] ts ++ [sep] = ts.flatMap (· ++ [sep])
  | [t], _ => by simp [join]
  | t :: u :: rest, _ => by
      have ih : join [sep] (u :: rest) ++ [sep] = (u :: rest).flatMap (· ++ [sep]) :=
        join_append_sep (List.cons_ne_nil u rest)
      rw [List.flatMap_cons, ← ih, join_cons_cons, List.append_assoc]

/-- A text among those of a joint text: the earlier ones have a separator behind each, and the later
ones one in front. -/
theorem join_append_cons {sep : Char} : ∀ (before : List Text) (t : Text) (later : List Text),
    join [sep] (before ++ t :: later) =
      before.flatMap (· ++ [sep]) ++ t ++ later.flatMap (sep :: ·)
  | [], t, [] => (List.append_nil t).symm
  | [], t, u :: rest => by
      have hrest : join [sep] (u :: rest) = u ++ rest.flatMap (sep :: ·) := join_append_cons [] u rest
      rw [List.nil_append, join_cons_cons, hrest, List.append_assoc]
      rfl
  | s :: rest, t, later => by
      have hrest : join [sep] (rest ++ t :: later) =
          rest.flatMap (· ++ [sep]) ++ t ++ later.flatMap (sep :: ·) := join_append_cons rest t later
      have hne : rest ++ t :: later ≠ [] := by simp
      obtain ⟨u, us, hus⟩ := List.exists_cons_of_ne_nil hne
      rw [List.cons_append, hus, join_cons_cons, ← hus, hrest, List.flatMap_cons]
      simp only [List.append_assoc]

theorem count_flatMap_append_sep {sep : Char} : ∀ {ts : List Text}, (∀ t ∈ ts, sep ∉ t) →
    (ts.flatMap (· ++ [sep])).count sep = ts.length
  | [], _ => rfl
  | t :: rest, h => by
      have ht : t.count sep = 0 := List.count_eq_zero.2 (h t List.mem_cons_self)
      have hrest : (rest.flatMap (· ++ [sep])).count sep = rest.length :=
        count_flatMap_append_sep fun u hu => h u (List.mem_cons_of_mem t hu)
      simp only [List.flatMap_cons, List.count_append, ht, hrest, List.count_singleton_self,
        List.length_cons]
      exact Nat.add_comm _ _

/-- The order of the texts does not change the number of bytes. -/
theorem byteLength_join_perm {sep : Char} {ts us : List Text} (h : ts.Perm us) :
    byteLength (join [sep] ts) = byteLength (join [sep] us) := by
  by_cases hts : ts = []
  · subst hts
    rw [List.nil_perm.1 h]
  · have hus : us ≠ [] := fun hnil => hts (List.perm_nil.1 (hnil ▸ h))
    have hflat := byteLength_perm (h.flatMap_right (· ++ [sep]))
    rw [← join_append_sep hts, ← join_append_sep hus, byteLength_append, byteLength_append] at hflat
    exact Nat.add_right_cancel hflat

/-! ### Bytes -/

/-- The bytes of a text in UTF-8. -/
def utf8 (t : Text) : List UInt8 := t.flatMap String.utf8EncodeChar

theorem utf8_append (s t : Text) : utf8 (s ++ t) = utf8 s ++ utf8 t := List.flatMap_append

theorem length_utf8 (t : Text) : (utf8 t).length = byteLength t := by
  induction t with
  | nil => rfl
  | cons c rest ih =>
    rw [utf8, List.flatMap_cons, List.length_append, String.length_utf8EncodeChar, ← utf8, ih]
    rfl

/-- The bytes of a part of a text are found behind those of what stands before it. -/
theorem utf8_slice (before t behind : Text) :
    ((utf8 (before ++ t ++ behind)).drop (byteLength before)).take (byteLength t) = utf8 t := by
  rw [List.append_assoc, utf8_append, utf8_append, ← length_utf8 before, List.drop_left,
    ← length_utf8 t, List.take_left]

end CipherRules.Text
