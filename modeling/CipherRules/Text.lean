/-!
# Text

A text is the list of its characters.  Lengths and positions that a user sees are counted in
bytes of UTF-8 (`Text.byteLength`).  Splitting at a separator and joining with it are inverse:
`Text.join_pieces` rebuilds a text from its pieces, and `Text.pieces_join` finds the pieces again
when none of them contains the separator.
-/

namespace CipherRules

/-- The characters of a text, in order. -/
abbrev Text := List Char

namespace Text

/-- Evidence that a string consists of the characters of a text. -/
inductive Spells : String → Text → Type where
  | ofList (t : Text) : Spells (String.ofList t) t

theorem Spells.toList_eq {s : String} {t : Text} : Spells s t → s.toList = t
  | ofList _ => String.toList_ofList

/-- The text of a string literal, spelled out so that it computes without decoding. -/
abbrev of (s : String) {t : Text}
    (_ : Spells s t := by exact CipherRules.Text.Spells.ofList _) : Text := t

/-- The number of bytes of a text in UTF-8. -/
def byteLength (t : Text) : Nat := t.foldr (fun c n => c.utf8Size + n) 0

@[simp] theorem byteLength_nil : byteLength [] = 0 := rfl

@[simp] theorem byteLength_cons (c : Char) (t : Text) :
    byteLength (c :: t) = c.utf8Size + byteLength t := rfl

@[simp] theorem byteLength_append (s t : Text) :
    byteLength (s ++ t) = byteLength s + byteLength t := by
  induction s with
  | nil => rw [List.nil_append, byteLength_nil, Nat.zero_add]
  | cons c s ih => rw [List.cons_append, byteLength_cons, byteLength_cons, ih, Nat.add_assoc]

/-- A natural number in decimal digits. -/
def ofNat (n : Nat) : Text := Nat.toDigits 10 n

/-- A text filled up with spaces in front. -/
def alignRight (width : Nat) (t : Text) : Text := List.replicate (width - t.length) ' ' ++ t

/-- A text filled up with spaces behind. -/
def alignLeft (width : Nat) (t : Text) : Text := t ++ List.replicate (width - t.length) ' '

/-! ### Splitting and joining -/

/-- The text before the first separator, and the pieces after it. -/
def split (sep : Char) : Text → Text × List Text
  | [] => ([], [])
  | c :: rest =>
      let (first, others) := split sep rest
      if c = sep then ([], first :: others) else (c :: first, others)

/-- The pieces of a text between its separators; there is always at least one. -/
def pieces (sep : Char) (t : Text) : List Text := (split sep t).1 :: (split sep t).2

/-- The texts in order, with `glue` between each two. -/
def join (glue : Text) : List Text → Text
  | [] => []
  | [t] => t
  | t :: u :: rest => t ++ glue ++ join glue (u :: rest)

@[simp] theorem pieces_nil (sep : Char) : pieces sep [] = [[]] := rfl

theorem pieces_cons_self (sep : Char) (t : Text) :
    pieces sep (sep :: t) = [] :: pieces sep t := by
  simp [pieces, split]

theorem pieces_cons_of_ne {sep c : Char} (h : c ≠ sep) (t : Text) :
    pieces sep (c :: t) = (c :: (split sep t).1) :: (split sep t).2 := by
  simp [pieces, split, h]

theorem join_cons_cons (glue t u : Text) (rest : List Text) :
    join glue (t :: u :: rest) = t ++ glue ++ join glue (u :: rest) := rfl

theorem join_cons_char (glue : Text) (c : Char) (t : Text) (rest : List Text) :
    join glue ((c :: t) :: rest) = c :: join glue (t :: rest) := by
  cases rest <;> simp [join]

/-- Joining the pieces of a text gives the text back. -/
theorem join_pieces (sep : Char) (t : Text) : join [sep] (pieces sep t) = t := by
  induction t with
  | nil => rfl
  | cons c t ih =>
    by_cases h : c = sep
    · subst h
      rw [pieces_cons_self]
      show join [c] ([] :: (split c t).1 :: (split c t).2) = c :: t
      rw [join_cons_cons]
      simpa [pieces] using ih
    · rw [pieces_cons_of_ne h, join_cons_char]
      exact congrArg (c :: ·) ih

/-- A text without separator is its own only piece. -/
theorem pieces_of_not_mem {sep : Char} {t : Text} (h : sep ∉ t) : pieces sep t = [t] := by
  induction t with
  | nil => rfl
  | cons c t ih =>
    have hc : c ≠ sep := fun e => h (e ▸ List.mem_cons_self)
    have ht : pieces sep t = [t] := ih fun e => h (List.mem_cons_of_mem _ e)
    simp only [pieces, List.cons.injEq] at ht
    rw [pieces_cons_of_ne hc, ht.1, ht.2]

/-- The pieces of two texts with a separator between are the pieces of the one, then those of the
other. -/
theorem pieces_append_sep (sep : Char) (s t : Text) :
    pieces sep (s ++ sep :: t) = pieces sep s ++ pieces sep t := by
  induction s with
  | nil => simp [pieces_cons_self]
  | cons c s ih =>
    by_cases h : c = sep
    · subst h
      simp [pieces_cons_self, ih]
    · rw [List.cons_append, pieces_cons_of_ne h, pieces_cons_of_ne h]
      simp only [pieces, List.cons_append, List.cons.injEq] at ih
      simp [ih, pieces]

/-- Texts without separator are the pieces of their joint text. -/
theorem pieces_join {sep : Char} : ∀ {ts : List Text}, ts ≠ [] → (∀ t ∈ ts, sep ∉ t) →
    pieces sep (join [sep] ts) = ts
  | [t], _, h => by simpa [join] using pieces_of_not_mem (h t (by simp))
  | t :: u :: rest, _, h => by
    rw [join_cons_cons, List.append_assoc, List.singleton_append, pieces_append_sep,
      pieces_of_not_mem (h t (by simp)),
      pieces_join (by simp) fun x hx => h x (List.mem_cons_of_mem _ hx)]
    rfl

/-- A piece contains no separator. -/
theorem not_mem_of_mem_pieces {sep : Char} {t piece : Text} (h : piece ∈ pieces sep t) :
    sep ∉ piece := by
  induction t generalizing piece with
  | nil => simp_all
  | cons c t ih =>
    by_cases hc : c = sep
    · subst hc
      rw [pieces_cons_self] at h
      rcases List.mem_cons.1 h with rfl | h
      · simp
      · exact ih h
    · rw [pieces_cons_of_ne hc] at h
      rcases List.mem_cons.1 h with rfl | h
      · have first : (split sep t).1 ∈ pieces sep t := by simp [pieces]
        simp [ih first, Ne.symm hc]
      · exact ih (by simp [pieces, h])

end Text

end CipherRules
