import CipherRules.Proofs.RuleString.OnePass
import CipherRules.Proofs.RuleString.Word

/-!
# Rule strings — Clauses

When a token is read, and as what.

* `Term.parseAll_eq_ok_iff`: terms are read one by one.
* `parseBody_eq_ok_iff`, `Clause.parse_eq_ok_iff`: a token is read exactly if it is the sorting
  directive or a sign and a body of at most sixteen terms, each of which is read.
* `Clause.sound_of_parse`: so a clause that is read is *sound* (`Clause.Sound`), which is all that
  the facts about its rule need of the token.
* `Clause.height_of_resolve?`: the sixteen terms of a token do not nest too deeply.
-/

namespace CipherRules.RuleString

open Text (pieces)

/-- If reading succeeds throughout, each result was read from some text. -/
theorem exists_of_map_eq_ok {α β ε : Type} {read : α → Except ε β} {texts : List α}
    {results : List β} (h : texts.map read = results.map .ok) {b : β} (hb : b ∈ results) :
    ∃ t ∈ texts, read t = .ok b := by
  have hmem : Except.ok b ∈ results.map (Except.ok : β → Except ε β) := List.mem_map_of_mem hb
  rw [← h] at hmem
  exact List.mem_map.1 hmem

/-! ### Terms -/

/-- Terms are read one by one. -/
theorem Term.parseAll_eq_ok_iff : ∀ {words : List Text} {terms : List Term},
    Term.parseAll words = .ok terms ↔ words.map Term.parse = terms.map .ok
  | [], terms => by cases terms <;> simp [Term.parseAll]
  | w :: rest, terms => by
      have ih : ∀ {ts : List Term}, Term.parseAll rest = .ok ts ↔
          rest.map Term.parse = ts.map .ok := Term.parseAll_eq_ok_iff
      rw [Term.parseAll]
      cases hw : Term.parse w with
      | error fault =>
        -- the first error ends the reading, whatever the other words are
        cases terms <;> simp [hw]
      | ok t =>
        cases hrest : Term.parseAll rest with
        | error fault =>
          have hno : ∀ ts : List Term, rest.map Term.parse ≠ ts.map .ok := by
            intro ts hts
            rw [ih.2 hts] at hrest
            cases hrest
          cases terms with
          | nil => simp
          | cons t' ts => simp [hno ts]
        | ok us =>
          cases terms with
          | nil => simp
          | cons t' ts =>
            rw [List.map_cons, List.map_cons, List.cons.injEq, ← ih, hw, hrest]
            simp

/-- A term that can be read is a keyword or looks like the name of a suite. -/
def Term.Sound : Term → Prop
  | .keyword p => ∃ w, (w, p) ∈ Keyword.table
  | .suite n => looksLikeSuiteName n = true

theorem Term.sound_of_parse {word : Text} {term : Term} (h : Term.parse word = .ok term) :
    term.Sound := by
  unfold Term.parse at h
  split at h
  · cases h
  · split at h
    · rename_i p hp
      cases h
      exact ⟨word, Keyword.mem_of_meaning? hp⟩
    · split at h
      · rename_i hn
        cases h
        exact hn
      · cases h

theorem Term.parse_keyword {w : Text} {p : Predicate} (h : (w, p) ∈ Keyword.table) :
    Term.parse w = .ok (.keyword p) := by
  have hne : w ≠ [] := (Keyword.word_of_mem h).ne_nil
  have hm : Keyword.meaning? w = some p := Keyword.meaning?_of_mem _ h
  rw [Term.parse, if_neg (by simpa using hne), hm]

theorem Term.parse_suite {n : Text} (h : looksLikeSuiteName n = true) :
    Term.parse n = .ok (.suite n) := by
  have hne : n ≠ [] := by
    rintro rfl
    exact absurd h (by decide)
  rw [Term.parse, if_neg (by simpa using hne), Keyword.meaning?_eq_none_of_looksLike h, h]
  rfl

/-! ### Clauses -/

/-- What stands behind a sign is read if it does not start with another sign, and has at most
sixteen terms, each of which is read. -/
theorem parseBody_eq_ok_iff {op : Operation} {body : Text} {clause : Clause} :
    Clause.parseBody op body = .ok clause ↔
      body ≠ [] ∧ (∀ c ∈ body.head?, isLeadingMark c = false) ∧
      (pieces termSeparator body).length ≤ Limits.termsPerToken ∧
      ∃ first others, (pieces termSeparator body).map Term.parse = (first :: others).map .ok ∧
        clause = .apply op first others := by
  cases body with
  | nil => simp [Clause.parseBody]
  | cons c rest =>
    simp only [Clause.parseBody, pieces]
    generalize Text.split termSeparator (c :: rest) = s
    obtain ⟨w, ws⟩ := s
    cases hc : isLeadingMark c with
    | true => simp [hc]
    | false =>
      -- the terms are counted before any of them is read
      by_cases hl : Limits.termsPerToken < ws.length + 1
      · have hl' : ¬ ws.length + 1 ≤ Limits.termsPerToken := Nat.not_le.2 hl
        simp [hl, hl']
      · have hl' : ws.length + 1 ≤ Limits.termsPerToken := Nat.le_of_not_lt hl
        simp only [Bool.false_eq_true, if_false, hl, List.length_cons, hl', List.map_cons,
          List.cons.injEq, ← Term.parseAll_eq_ok_iff]
        constructor
        · intro h
          cases hw : Term.parse w with
          | error fault => simp [hw] at h
          | ok t =>
            cases hws : Term.parseAll ws with
            | error fault => simp [hw, hws] at h
            | ok ts =>
              simp only [hw, hws, Except.ok.injEq] at h
              exact ⟨by simp, by simpa using hc, trivial, t, ts, ⟨rfl, rfl⟩, h.symm⟩
        · rintro ⟨-, -, -, t, ts, ⟨hw, hws⟩, rfl⟩
          rw [hw, hws]

theorem parseBody_of_tooMany {op : Operation} {body : Text} (hne : body ≠ [])
    (hmark : ∀ c ∈ body.head?, isLeadingMark c = false)
    (hl : Limits.termsPerToken < (pieces termSeparator body).length) :
    Clause.parseBody op body = .error .tooManyTerms := by
  obtain ⟨c, rest, rfl⟩ := List.exists_cons_of_ne_nil hne
  have hc : isLeadingMark c = false := hmark c rfl
  rw [Clause.parseBody, hc]
  exact if_pos hl

/-- The character that stands for an operation is its sign, and no sign stands for adding. -/
theorem Operation.sign_of_ofSign? {c : Char} {op : Operation} (h : Operation.ofSign? c = some op) :
    op.sign = [c] ∧ op ≠ .sortByStrength := by
  unfold Operation.ofSign? at h
  split at h
  · cases h; subst c; exact ⟨rfl, by decide⟩
  · split at h
    · cases h; subst c; exact ⟨rfl, by decide⟩
    · split at h
      · cases h; subst c; exact ⟨rfl, by decide⟩
      · split at h
        · cases h; subst c; exact ⟨rfl, by decide⟩
        · cases h

/-- Behind its sign an operation reads the rest, unless another sign follows. -/
theorem Clause.parse_sign_append {op : Operation} (hop : op ≠ .sortByStrength) {body : Text}
    (hne : body ≠ []) (hmark : ∀ c ∈ body.head?, isLeadingMark c = false) :
    Clause.parse (op.sign ++ body) = Clause.parseBody op body := by
  obtain ⟨c, rest, rfl⟩ := List.exists_cons_of_ne_nil hne
  have hc : isLeadingMark c = false := hmark c rfl
  simp only [isLeadingMark, Bool.or_eq_false_iff, beq_eq_false_iff_ne] at hc
  have hsign : Operation.ofSign? c = none := Option.not_isSome_iff_eq_none.1 (by simp [hc.1])
  cases op with
  | add => simp [Operation.sign, Clause.parse, hc.2, hsign]
  | sortByStrength => exact absurd rfl hop
  | _ => rfl

/-- A token is the sorting directive, or a sign and a body. -/
theorem Clause.parse_eq_ok_iff {text : Text} {clause : Clause} :
    Clause.parse text = .ok clause ↔
      text = Rule.strengthDirective ∧ clause = .sortByStrength ∨
      ∃ op body, op ≠ .sortByStrength ∧ text = op.sign ++ body ∧
        Clause.parseBody op body = .ok clause := by
  constructor
  · intro h
    cases text with
    | nil => simp [Clause.parse] at h
    | cons c rest =>
      rw [Clause.parse] at h
      split at h
      · split at h
        · rename_i heq
          cases h
          exact Or.inl ⟨heq, rfl⟩
        · cases h
      · split at h
        · rename_i op hop
          obtain ⟨hsign, hne⟩ := Operation.sign_of_ofSign? hop
          exact Or.inr ⟨op, rest, hne, by simp [hsign], h⟩
        · exact Or.inr ⟨.add, c :: rest, by decide, rfl, h⟩
  · rintro (⟨rfl, rfl⟩ | ⟨op, body, hop, rfl, h⟩)
    · rfl
    · obtain ⟨hne, hmark, -⟩ := parseBody_eq_ok_iff.1 h
      rw [Clause.parse_sign_append hop hne hmark, h]

/-- A clause that can be read: its operation has a sign, and it has at most sixteen terms, each of
which can be read. -/
def Clause.Sound : Clause → Prop
  | .sortByStrength => True
  | .apply op first others =>
      op ≠ .sortByStrength ∧ (∀ t ∈ first :: others, t.Sound) ∧
        others.length < Limits.termsPerToken

theorem Clause.sound_of_parse {text : Text} {clause : Clause}
    (h : Clause.parse text = .ok clause) : clause.Sound := by
  rcases Clause.parse_eq_ok_iff.1 h with ⟨-, rfl⟩ | ⟨op, body, hop, -, hbody⟩
  · trivial
  · obtain ⟨-, -, hlen, first, others, hterms, rfl⟩ := parseBody_eq_ok_iff.1 hbody
    refine ⟨hop, fun t ht => ?_, ?_⟩
    · obtain ⟨w, -, hw⟩ := exists_of_map_eq_ok hterms ht
      exact Term.sound_of_parse hw
    · have hcount := congrArg List.length hterms
      rw [List.length_map, List.length_map, List.length_cons] at hcount
      rw [hcount] at hlen
      exact hlen

/-! ### Depth -/

theorem Term.height_of_resolve? {catalog : Catalog} {t : Term} {p : Predicate} (hsound : t.Sound)
    (h : t.resolve? catalog = some p) : p.height ≤ 5 := by
  cases t with
  | keyword q =>
    cases h
    obtain ⟨w, hw⟩ := hsound
    have low : ∀ e ∈ Keyword.table, e.2.height ≤ 5 := by decide +kernel
    exact low _ hw
  | suite n =>
    obtain ⟨s, -, rfl⟩ := Option.map_eq_some_iff.1 h
    exact Nat.le_add_left 1 4

/-- Each further term nests the conjunction one deeper. -/
theorem Term.height_of_conjoin? {catalog : Catalog} {others : List Term} {p q : Predicate} {n : Nat}
    (hsound : ∀ t ∈ others, t.Sound) (hp : p.height ≤ n) (hn : 5 ≤ n)
    (h : Term.conjoin? catalog p others = some q) : q.height ≤ n + others.length := by
  -- the bound is on what is conjoined so far, and grows by one with each term
  induction others generalizing p n with
  | nil =>
    cases h
    exact hp
  | cons t rest ih =>
    rw [Term.conjoin?] at h
    split at h
    · cases h
    · rename_i r hr
      have hheight : r.height ≤ 5 := Term.height_of_resolve? (hsound t List.mem_cons_self) hr
      have hand : (Predicate.and p r).height ≤ n + 1 :=
        Nat.succ_le_succ (Nat.max_le.2 ⟨hp, Nat.le_trans hheight hn⟩)
      have hrest : ∀ u ∈ rest, u.Sound := fun u hu => hsound u (List.mem_cons_of_mem t hu)
      have hq := ih hrest hand (Nat.le_succ_of_le hn) h
      rw [List.length_cons]
      omega

/-- Sixteen terms do not nest too deeply. -/
theorem Clause.height_of_resolve? {catalog : Catalog} {clause : Clause} {r : Rule}
    (hsound : clause.Sound) (h : clause.resolve? catalog = some r) :
    r.predicate.height ≤ Limits.predicateDepth := by
  cases clause with
  | sortByStrength =>
    cases h
    decide
  | apply op first others =>
    obtain ⟨-, hterms, hlen⟩ := hsound
    rw [Clause.resolve?] at h
    split at h
    · cases h
    · rename_i p hp
      obtain ⟨q, hq, rfl⟩ := Option.map_eq_some_iff.1 h
      have hheight : p.height ≤ 5 := Term.height_of_resolve? (hterms first List.mem_cons_self) hp
      have hdeep : q.height ≤ 5 + others.length :=
        Term.height_of_conjoin? (fun t ht => hterms t (List.mem_cons_of_mem first ht)) hheight
          (Nat.le_refl 5) hq
      have hroom : 5 + Limits.termsPerToken ≤ Limits.predicateDepth := by decide
      exact Nat.le_trans hdeep (Nat.le_trans (Nat.add_le_add_left (Nat.le_of_lt hlen) 5) hroom)

end CipherRules.RuleString
