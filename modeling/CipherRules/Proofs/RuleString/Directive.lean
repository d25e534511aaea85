import CipherRules.Predicate.Directive
import CipherRules.Proofs.Catalog.Names
import CipherRules.Proofs.RuleString.Clause

/-!
# Rule strings — Directives

What a directive says, word by word.  `Written p ws` relates a predicate to words for it: a keyword
or a name stands for itself, and one more word is one more operand on the right.  The writer and the
reader meet there:

* a directive joins words for its predicate (`Written.of_writeDirective?`), and a predicate with
  words has a directive of no more words (`Written.exists_writeDirective?`);
* the words are read as terms that stand for the predicate (`Written.reads`), and the terms of a
  token give a predicate with as many words (`written_of_conjoin?`).

There are no more words than the predicate is high (`Written.length_le_height`), so a directive has
at most thirty-two.
-/

namespace CipherRules

/-- The names in the conditions of a predicate. -/
def Predicate.names : Predicate → List Text
  | .always | .never => []
  | .condition (.name values) => values.values
  | .condition _ => []
  | .and p q | .or p q => p.names ++ q.names
  | .not p => p.names

namespace RuleString

open Text (pieces join)

/-- The words stand for the predicate, one more operand on the right with each word. -/
inductive Written : Predicate → List Text → Prop where
  | keyword {w : Text} {p : Predicate} (h : (w, p) ∈ Keyword.table) : Written p [w]
  | name {n : Text} (h : looksLikeSuiteName n = true) : Written (.name [n]) [n]
  | and {p q : Predicate} {ws : List Text} {w : Text} (hp : Written p ws) (hq : Written q [w]) :
      Written (.and p q) (ws ++ [w])

/-- Every name in the predicate is the standard name of a suite. -/
def Named (catalog : Catalog) (p : Predicate) : Prop :=
  ∀ n ∈ p.names, ∃ s ∈ catalog.suites, s.name = n

section Named

variable {catalog : Catalog} {p q : Predicate}

theorem Named.left (h : Named catalog (.and p q)) : Named catalog p :=
  fun n hn => h n (List.mem_append_left _ hn)

theorem Named.right (h : Named catalog (.and p q)) : Named catalog q :=
  fun n hn => h n (List.mem_append_right _ hn)

theorem Named.and (hp : Named catalog p) (hq : Named catalog q) : Named catalog (.and p q) :=
  fun n hn => (List.mem_append.1 hn).elim (hp n) (hq n)

end Named

theorem Term.conjoin?_append {catalog : Catalog} {p : Predicate} {first last : List Term} :
    Term.conjoin? catalog p (first ++ last) =
      (Term.conjoin? catalog p first).bind (Term.conjoin? catalog · last) := by
  induction first generalizing p with
  | nil => rfl
  | cons t rest ih =>
    rw [List.cons_append, Term.conjoin?, Term.conjoin?]
    cases t.resolve? catalog with
    | none => rfl
    | some q => exact ih

/-! ### Writing -/

namespace Written

variable {catalog : Catalog} {p q : Predicate} {ws : List Text}

theorem ne_nil (h : Written p ws) : ws ≠ [] := by
  cases h <;> simp

/-- A directive joins words for its predicate. -/
theorem of_writeDirective? {d : Text} (h : p.writeDirective? = some d) :
    ∃ ws, Written p ws ∧ d = join [termSeparator] ws := by
  fun_induction Predicate.writeDirective? p generalizing d with
  | case1 names =>
    rw [Option.orElse_eq_orElse, Option.orElse_eq_or, Option.or_eq_some_iff] at h
    rcases h with h | ⟨-, h⟩
    · exact ⟨[d], .keyword (Keyword.mem_of_spelling? h), rfl⟩
    · split at h
      · rename_i n hn
        obtain ⟨hlooks, h⟩ := Option.ite_none_right_eq_some.1 h
        cases h
        have hnames : names = .ofList [d] := ValueSet.eq_of_values_eq hn
        exact ⟨[d], hnames ▸ .name hlooks, rfl⟩
      · cases h
  | case2 left right ihr ihl =>
    rw [Option.orElse_eq_orElse, Option.orElse_eq_or, Option.or_eq_some_iff] at h
    rcases h with h | ⟨-, h⟩
    · exact ⟨[d], .keyword (Keyword.mem_of_spelling? h), rfl⟩
    · split at h
      · cases h
      · rename_i r hr
        obtain ⟨hplus, h⟩ := Option.ite_none_left_eq_some.1 h
        obtain ⟨l, hl, rfl⟩ := Option.map_eq_some_iff.1 h
        obtain ⟨ws, hws, rfl⟩ := ihl hl
        obtain ⟨vs, hvs, rfl⟩ := ihr hr
        -- the guard against `+` leaves one word on the right
        have hone : vs = [join [termSeparator] vs] :=
          Text.eq_singleton_of_not_mem_join hvs.ne_nil fun hmem =>
            hplus (List.contains_iff_mem.2 hmem)
        rw [hone] at hvs
        exact ⟨_, .and hws hvs, (Text.join_append_singleton hws.ne_nil).symm⟩
  | case3 p => exact ⟨[d], .keyword (Keyword.mem_of_spelling? h), rfl⟩

/-- A spelling is a directive of one word. -/
theorem writeDirective?_of_spelling? {v : Text} (h : Keyword.spelling? p = some v) :
    p.writeDirective? = some v ∧ (pieces termSeparator v).length = 1 := by
  have hword : Word v := Keyword.word_of_mem (Keyword.mem_of_spelling? h)
  refine ⟨?_, by rw [Text.pieces_of_not_mem hword.no_termSeparator]; rfl⟩
  fun_cases Predicate.writeDirective? p with
  | case1 | case2 =>
    rw [h]
    rfl
  | case3 => exact h

theorem writeDirective?_name {n : Text} (h : looksLikeSuiteName n = true)
    (hnone : Keyword.spelling? (.name [n]) = none) :
    (Predicate.name [n]).writeDirective? = some n := by
  have hwrite : (Predicate.name [n]).writeDirective? =
      (Keyword.spelling? (.name [n]) <|> if looksLikeSuiteName n then some n else none) := rfl
  rw [hwrite, hnone, if_pos h]
  rfl

theorem writeDirective?_and {l r : Text} (hl : p.writeDirective? = some l)
    (hr : q.writeDirective? = some r) (hplus : termSeparator ∉ r)
    (hnone : Keyword.spelling? (.and p q) = none) :
    (Predicate.and p q).writeDirective? = some (l ++ termSeparator :: r) := by
  have hguard : ¬ r.contains '+' = true := fun hc => hplus (List.contains_iff_mem.1 hc)
  rw [Predicate.writeDirective?, hnone, hr, hl]
  exact if_neg hguard

/-- A predicate with words in which no `+` stands has a directive of no more words. -/
theorem exists_writeDirective? (h : Written p ws) (hplus : ∀ w ∈ ws, termSeparator ∉ w) :
    ∃ d, p.writeDirective? = some d ∧ (pieces termSeparator d).length ≤ ws.length := by
  induction h with
  | @keyword w p h =>
    obtain ⟨v, hv⟩ := Keyword.exists_spelling?_of_mem h
    obtain ⟨hd, hone⟩ := writeDirective?_of_spelling? hv
    exact ⟨v, hd, Nat.le_of_eq hone⟩
  | @name n h =>
    cases hspelling : Keyword.spelling? (.name [n]) with
    | some v =>
      obtain ⟨hd, hone⟩ := writeDirective?_of_spelling? hspelling
      exact ⟨v, hd, Nat.le_of_eq hone⟩
    | none =>
      have hn : termSeparator ∉ n := hplus n (List.mem_singleton_self n)
      exact ⟨n, writeDirective?_name h hspelling,
        Nat.le_of_eq (congrArg List.length (Text.pieces_of_not_mem hn))⟩
  | @and p q ws w hp hq ihp ihq =>
    cases hspelling : Keyword.spelling? (.and p q) with
    | some v =>
      obtain ⟨hd, hone⟩ := writeDirective?_of_spelling? hspelling
      refine ⟨v, hd, ?_⟩
      rw [hone, List.length_append]
      exact Nat.le_add_left 1 ws.length
    | none =>
      obtain ⟨l, hl, hlen⟩ := ihp fun v hv => hplus v (List.mem_append_left _ hv)
      obtain ⟨r, hr, hone⟩ := ihq fun v hv => hplus v (List.mem_append_right _ hv)
      -- one piece is no more than the word itself, so no `+` hides the operand from the writer
      have hrplus : termSeparator ∉ r := Text.not_mem_of_length_pieces_le_one hone
      refine ⟨_, writeDirective?_and hl hr hrplus hspelling, ?_⟩
      rw [Text.pieces_append_sep, List.length_append, List.length_append]
      exact Nat.add_le_add hlen hone

/-! ### Reading -/

/-- The words of a predicate are read as terms that stand for it. -/
theorem reads (h : Written p ws) (hnames : Named catalog p) :
    ∃ first others q, ws.map Term.parse = (first :: others).map .ok ∧
      first.resolve? catalog = some q ∧ Term.conjoin? catalog q others = some p := by
  induction h with
  | @keyword w p h => exact ⟨.keyword p, [], p, by simp [Term.parse_keyword h], rfl, rfl⟩
  | @name n h =>
    obtain ⟨s, hs, rfl⟩ := hnames n (List.mem_singleton_self n)
    refine ⟨.suite s.name, [], .name [s.name], by simp [Term.parse_suite h], ?_, rfl⟩
    rw [Term.resolve?, Catalog.lookup?_name hs]
    rfl
  | @and p q ws w hp hq ihp ihq =>
    -- the last word is one more term behind the others
    obtain ⟨first, others, r, hws, hfirst, hothers⟩ := ihp hnames.left
    obtain ⟨last, rest, q', hw, hlast, hrest⟩ := ihq hnames.right
    obtain ⟨hword, hnil⟩ := List.cons.inj hw
    obtain rfl : rest = [] := List.map_eq_nil_iff.1 hnil.symm
    cases hrest
    refine ⟨first, others ++ [last], r, ?_, hfirst, ?_⟩
    · rw [List.map_append, hws, List.map_singleton, hword, ← List.cons_append, List.map_append,
        List.map_singleton]
    · rw [Term.conjoin?_append, hothers, Option.bind_some, Term.conjoin?, hlast]
      rfl

/-! ### Counting -/

/-- Each word is a keyword or one of the names. -/
theorem mem_words (h : Written p ws) {w : Text} (hw : w ∈ ws) :
    w ∈ Keyword.all ∨ w ∈ p.names := by
  induction h with
  | @keyword v p h =>
    obtain rfl := List.mem_singleton.1 hw
    exact Or.inl (List.mem_map_of_mem h)
  | @name n h => exact Or.inr hw
  | @and p q ws v hp hq ihp ihq =>
    rcases List.mem_append.1 hw with hw | hw
    · exact (ihp hw).imp_right (List.mem_append_left _)
    · exact (ihq hw).imp_right (List.mem_append_right _)

theorem word (h : Written p ws) (hnames : ∀ n ∈ p.names, Writable n) {w : Text} (hw : w ∈ ws) :
    Word w := by
  rcases h.mem_words hw with hkey | hname
  · obtain ⟨e, he, rfl⟩ := List.mem_map.1 hkey
    exact Keyword.word_of_mem he
  · exact (hnames w hname).word

/-- There are no more words than the predicate is high. -/
theorem length_le_height (h : Written p ws) : ws.length ≤ p.height := by
  induction h with
  | @keyword w p h => exact p.height_pos
  | name => exact Nat.le_refl 1
  | @and p q ws w hp hq ihp ihq =>
    rw [List.length_append, List.length_singleton, Predicate.height]
    exact Nat.succ_le_succ (Nat.le_trans ihp (Nat.le_max_left _ _))

end Written

/-! ### The predicate of a token -/

theorem Term.named_of_resolve? {catalog : Catalog} {term : Term} {p : Predicate}
    (hsound : term.Sound) (h : term.resolve? catalog = some p) : Named catalog p := by
  cases term with
  | keyword q =>
    cases h
    obtain ⟨w, hw⟩ := hsound
    have plain : ∀ e ∈ Keyword.table, e.2.names = [] := by decide +kernel
    intro n hn
    rw [plain _ hw] at hn
    exact absurd hn List.not_mem_nil
  | suite m =>
    obtain ⟨s, hs, rfl⟩ := Option.map_eq_some_iff.1 h
    intro n hn
    obtain rfl := List.mem_singleton.1 hn
    exact ⟨s, (Catalog.lookup?_eq_some_iff.1 hs).1, rfl⟩

/-- A term gives a predicate of one word, if the names of the catalog look like names. -/
theorem Term.written_of_resolve? {catalog : Catalog}
    (hlooks : ∀ s ∈ catalog.suites, looksLikeSuiteName s.name = true) {term : Term}
    {p : Predicate} (hsound : term.Sound) (h : term.resolve? catalog = some p) :
    ∃ w, Written p [w] := by
  cases term with
  | keyword q =>
    cases h
    obtain ⟨w, hw⟩ := hsound
    exact ⟨w, .keyword hw⟩
  | suite m =>
    obtain ⟨s, hs, rfl⟩ := Option.map_eq_some_iff.1 h
    exact ⟨s.name, .name (hlooks s (Catalog.lookup?_eq_some_iff.1 hs).1)⟩

/-- The terms of a token give a predicate with as many words. -/
theorem Term.written_of_conjoin? {catalog : Catalog}
    (hlooks : ∀ s ∈ catalog.suites, looksLikeSuiteName s.name = true) {others : List Term}
    {p q : Predicate} {ws : List Text} (hsound : ∀ t ∈ others, t.Sound) (hp : Written p ws)
    (hnamed : Named catalog p) (h : Term.conjoin? catalog p others = some q) :
    Named catalog q ∧ ∃ vs, Written q vs ∧ vs.length = ws.length + others.length := by
  induction others generalizing p ws with
  | nil =>
    cases h
    exact ⟨hnamed, ws, hp, rfl⟩
  | cons t rest ih =>
    rw [Term.conjoin?] at h
    split at h
    · cases h
    · rename_i r hr
      have ht : t.Sound := hsound t List.mem_cons_self
      obtain ⟨w, hw⟩ := Term.written_of_resolve? hlooks ht hr
      obtain ⟨hq, vs, hvs, hlen⟩ := ih (fun u hu => hsound u (List.mem_cons_of_mem t hu))
        (.and hp hw) (hnamed.and (Term.named_of_resolve? ht hr)) h
      refine ⟨hq, vs, hvs, ?_⟩
      rw [hlen, List.length_append, List.length_singleton, List.length_cons, Nat.add_assoc,
        Nat.add_comm 1]

end RuleString

end CipherRules
