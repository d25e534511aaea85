import CipherRules.Proofs.Text
import CipherRules.Proofs.Toml.Quoted
import CipherRules.Toml.Codec

/-!
# TOML — Documents read back

A document of bare keys with texts gives the names that it was made of (`read?_renderEntries`), so
the codec can be relied on for them (`faithful_codec`).  Each entry is a line, or several lines,
that the reader takes in one step: the key up to the equals sign (`key?_append`), then the text in
quotes, then the end of the line (`entry?_append`).
-/

namespace CipherRules.Toml

variable {c : Char} {key t rest : Text} {bound : Nat} {names : Names}

/-- A key that needs no quotes. -/
def IsBareKey (key : Text) : Prop := key ≠ [] ∧ ∀ c ∈ key, isBareKeyChar c = true

/-- The names that a document of texts gives, the latest first. -/
def namesOf (entries : List (Text × Text)) : Names :=
  entries.reverse.map fun e => ([e.1], .value (.text e.2))

/-! ### Starts of lines -/

theorem skipBlanks_cons (h : isBlank c = false) : skipBlanks (c :: rest) = c :: rest :=
  List.dropWhile_cons_of_neg (by simp [h])

theorem skipComment_cons (h : c ≠ '#') : skipComment (c :: rest) = c :: rest := by
  unfold skipComment
  split <;> simp_all

theorem isBlank_of_isBareKeyChar (h : isBareKeyChar c = true) : isBlank c = false := by
  simp [isBlank, Text.ne_of_test h (d := ' ') rfl, Text.ne_of_test h (d := '\t') rfl]

/-- Nothing is skipped in front of a key. -/
theorem skipLines_cons (h : isBareKeyChar c = true) :
    skipLines bound (c :: rest) = c :: rest := by
  cases bound with
  | zero => rfl
  | succ bound =>
    have hend : lineEnd? (c :: rest) = none := by
      have hline := Text.ne_of_test h (d := '\n') rfl
      have hreturn := Text.ne_of_test h (d := '\r') rfl
      unfold lineEnd?
      split <;> simp_all
    rw [skipLines, skipBlanks_cons (isBlank_of_isBareKeyChar h),
      skipComment_cons (Text.ne_of_test h rfl), hend]

theorem endLine?_cons (rest : Text) : endLine? ('\n' :: rest) = some rest := rfl

/-! ### Entries -/

theorem simpleKey?_append (h : IsBareKey key) (hrest : ∀ c ∈ rest.head?, isBareKeyChar c = false) :
    simpleKey? (key ++ rest) = some (key, rest) := by
  obtain ⟨hnonempty, hbare⟩ := h
  have htake : (key ++ rest).takeWhile isBareKeyChar = key := by
    rw [List.takeWhile_append_of_pos hbare]
    cases rest with
    | nil => simp
    | cons d rest => simp [hrest d rfl]
  have hdrop : (key ++ rest).dropWhile isBareKeyChar = rest := by
    rw [List.dropWhile_append_of_pos hbare]
    cases rest with
    | nil => rfl
    | cons d rest => simp [hrest d rfl]
  have hquoted : quotedOnLine? (key ++ rest) = none := by
    cases key with
    | nil => exact absurd rfl hnonempty
    | cons c key =>
      have hc := hbare c List.mem_cons_self
      have hdouble : c ≠ '"' := Text.ne_of_test hc rfl
      have hsingle : c ≠ '\'' := Text.ne_of_test hc rfl
      rw [List.cons_append]
      unfold quotedOnLine?
      split <;> simp_all
  rw [simpleKey?, hquoted, htake, hdrop]
  simp [hnonempty]

/-- A bare key is read up to the equals sign. -/
theorem key?_append (h : IsBareKey key) (rest : Text) :
    key? (bound + 1) (key ++ (Text.of " = " ++ rest)) = some ([key], '=' :: ' ' :: rest) := by
  have hskip : skipBlanks (key ++ (Text.of " = " ++ rest)) = key ++ (Text.of " = " ++ rest) := by
    cases key with
    | nil => exact absurd rfl h.1
    | cons c key => exact skipBlanks_cons (isBlank_of_isBareKeyChar (h.2 c List.mem_cons_self))
  have hsimple : simpleKey? (key ++ (Text.of " = " ++ rest)) =
      some (key, Text.of " = " ++ rest) :=
    simpleKey?_append h (by rintro _ ⟨⟩; rfl)
  have hparts : keyParts? (bound + 1) (key ++ (Text.of " = " ++ rest)) =
      some ([key], '=' :: ' ' :: rest) := by
    rw [keyParts?, hskip, hsimple]
    rfl
  rw [key?, hparts]
  rfl

/-- What is written for a text begins with a quote. -/
theorem exists_render_cons (t : Text) :
    ∃ q body, render t = q :: body ∧ (q = '"' ∨ q = '\'') := by
  rw [render]
  cases Style.of t with
  | basic => exact ⟨_, _, rfl, Or.inl rfl⟩
  | literal => exact ⟨_, _, rfl, Or.inr rfl⟩
  | basicLines => exact ⟨_, _, rfl, Or.inl rfl⟩
  | literalLines => exact ⟨_, _, rfl, Or.inr rfl⟩

theorem value?_render (depth : Nat) (t rest : Text) :
    value? (bound + 1) depth (render t ++ '\n' :: rest) = some (.text t, '\n' :: rest) := by
  have hread := quoted?_render t rest
  obtain ⟨q, body, hrender, hq⟩ := exists_render_cons t
  rw [hrender, List.cons_append] at hread ⊢
  rcases hq with rfl | rfl
  · simp [value?, hread]
  · simp [value?, hread]

/-- **An entry is read up to the end of its line.** -/
theorem entry?_append (h : IsBareKey key) (hnew : names.lookup [key] = none) (bound : Nat)
    (t rest : Text) :
    entry? (bound + 1) names [] (key ++ (Text.of " = " ++ (render t ++ '\n' :: rest))) =
      some (([key], .value (.text t)) :: names, '\n' :: rest) := by
  have hskip : skipBlanks (' ' :: (render t ++ '\n' :: rest)) = render t ++ '\n' :: rest := by
    obtain ⟨q, body, hrender, hq⟩ := exists_render_cons t
    rw [hrender, List.cons_append]
    rcases hq with rfl | rfl <;> rfl
  have hassign : names.assign? [] [key] (.text t) =
      some (([key], .value (.text t)) :: names) := by
    simp [Names.assign?, Names.descend?, hnew]
  unfold entry?
  rw [key?_append h]
  simp only [hskip, value?_render, hassign]
  rfl

/-! ### Documents -/

theorem skipLines_nil (bound : Nat) : skipLines bound [] = [] := by
  cases bound <;> rfl

theorem renderEntries_cons (e : Text × Text) (entries : List (Text × Text)) :
    renderEntries (e :: entries) =
      e.1 ++ (Text.of " = " ++ (render e.2 ++ '\n' :: renderEntries entries)) := by
  simp [renderEntries]

/-- A line that begins with a key is an entry. -/
theorem lines?_entry {later : Names} (h : IsBareKey key)
    (hentry : entry? bound names [] (key ++ rest) = some (later, '\n' :: t)) :
    lines? (bound + 1) names [] (key ++ rest) = lines? bound later [] t := by
  obtain ⟨hnonempty, hbare⟩ := h
  cases key with
  | nil => exact absurd rfl hnonempty
  | cons c key =>
    have hc := hbare c List.mem_cons_self
    have hbracket : c ≠ '[' := Text.ne_of_test hc rfl
    rw [List.cons_append] at hentry ⊢
    rw [lines?, skipLines_cons hc]
    split <;> simp_all [endLine?_cons]

/-- **Lines of entries give their names**, in front of the names before. -/
theorem lines?_renderEntries {entries : List (Text × Text)} :
    ∀ {names : Names} {bound : Nat}, (∀ e ∈ entries, IsBareKey e.1) →
      (entries.map (·.1)).Nodup → (∀ e ∈ entries, names.lookup [e.1] = none) →
      entries.length < bound →
      lines? bound names [] (renderEntries entries) = some (namesOf entries ++ names) := by
  induction entries with
  | nil =>
    intro names bound _ _ _ hbound
    obtain ⟨bound, rfl⟩ := Nat.exists_eq_add_of_lt hbound
    rw [lines?, renderEntries, List.flatMap_nil, skipLines_nil]
    rfl
  | cons e entries ih =>
    intro names bound hbare hnodup hnew hbound
    obtain ⟨n, rfl⟩ : ∃ n, bound = n + 1 + 1 := ⟨bound - 2, by simp at hbound; omega⟩
    obtain ⟨hkey, hkeys⟩ := List.forall_mem_cons.1 hbare
    obtain ⟨hnewkey, hnewkeys⟩ := List.forall_mem_cons.1 hnew
    obtain ⟨hother, hothers⟩ := List.nodup_cons.1 hnodup
    have hlater : ∀ d ∈ entries,
        List.lookup [d.1] (([e.1], Use.value (.text e.2)) :: names) = none := by
      intro d hd
      have hne : ([d.1] == [e.1]) = false := by
        refine beq_eq_false_iff_ne.2 fun heq => hother ?_
        exact List.mem_map.2 ⟨d, hd, List.head_eq_of_cons_eq heq⟩
      rw [List.lookup_cons, hne, hnewkeys d hd]
    have hentry := entry?_append hkey hnewkey n e.2 (renderEntries entries)
    rw [renderEntries_cons, lines?_entry hkey hentry,
      ih hkeys hothers hlater (by simpa using hbound)]
    simp [namesOf]

/-- There are no more entries than characters. -/
theorem length_le_length_renderEntries (entries : List (Text × Text)) :
    entries.length ≤ (renderEntries entries).length := by
  induction entries with
  | nil => exact Nat.le_refl 0
  | cons e entries ih =>
    simp only [renderEntries_cons, List.length_cons, List.length_append]
    omega

/-- **A document of bare keys with texts is read back.** -/
theorem read?_renderEntries {entries : List (Text × Text)} (hbare : ∀ e ∈ entries, IsBareKey e.1)
    (hnodup : (entries.map (·.1)).Nodup) :
    read? (renderEntries entries) = some (namesOf entries) := by
  have hmark : skipByteOrderMark (renderEntries entries) = renderEntries entries := by
    cases entries with
    | nil => rfl
    | cons e entries =>
      obtain ⟨hnonempty, hkey⟩ := hbare e List.mem_cons_self
      obtain ⟨c, key, hcons⟩ := List.exists_cons_of_ne_nil hnonempty
      have hc : c ≠ '\ufeff' := Text.ne_of_test (hkey c (by simp [hcons])) rfl
      rw [renderEntries_cons, hcons, List.cons_append]
      unfold skipByteOrderMark
      split <;> simp_all
  have hbound := Nat.lt_succ_of_le (length_le_length_renderEntries entries)
  rw [read?, hmark]
  exact (lines?_renderEntries hbare hnodup (by simp) hbound).trans
    (congrArg some (List.append_nil _))

/-! ### The codec -/

theorem renderPresent_present (entries : List (Text × Text)) :
    renderPresent (Codec.present entries) = renderEntries entries := by
  rw [renderPresent, Codec.present, List.filterMap_map]
  exact congrArg renderEntries List.filterMap_some

/-- The latest entry comes first. -/
theorem entries_namesOf (entries : List (Text × Text)) :
    Names.entries (namesOf entries) = entries.reverse.map fun e => (e.1, .ofText e.2) := by
  rw [Names.entries, namesOf, List.filterMap_map]
  exact congrFun List.filterMap_eq_map' entries.reverse

/-- **The codec of TOML can be relied on** for texts under bare keys. -/
theorem faithful_codec : codec.Faithful IsBareKey where
  refuses_only _ _ _ hwrite := by cases hwrite
  reads_back entries document hkeys hnodup hwrite := by
    obtain rfl : renderEntries entries = document :=
      (renderPresent_present entries).symm.trans (Except.ok.inj hwrite)
    have hread : codec.read (renderEntries entries) =
        ⟨Names.entries (namesOf entries), true, true⟩ := by
      simp only [codec, read?_renderEntries hkeys hnodup]
    rw [hread, entries_namesOf]
    exact ⟨(List.reverse_perm entries).map _, rfl, rfl⟩

end CipherRules.Toml
