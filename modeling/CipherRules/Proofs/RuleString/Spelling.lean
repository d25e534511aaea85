import CipherRules.Proofs.RuleString.Part

/-!
# Rule strings — Spelling

One rule string can be spelled in many ways.  The terms of a token may stand in another order, a
term may be said more than once, and a word may be exchanged for another one with its meaning
(`Rewords`); blanks may stand around a token or not (`Respelled`).

The other spelling is a mere text: that it is cut into the same tokens and terms, and that these
are read, has to be shown.  It holds since a word with a meaning (`Known`) is a keyword or a name
that can stand in a rule string, so no sign, separator or blank comes with it.

* `Rewords.forall_iff`: a property that a word shares with its synonyms holds of all words of one
  wording exactly if it holds of all words of the other.
* `Respells.exists_gives`: a token spelled otherwise is a token and gives a rule that is alike.
* `Respelled.exists_parse`: a rule string spelled otherwise is read, as rules that are alike.
-/

namespace CipherRules.RuleString

open Text (join)

/-! ### Spellings -/

/-- A word with a meaning: a keyword, or a name of a suite of the catalog. -/
def Known (catalog : Catalog) (word : Text) : Prop :=
  word ∈ Keyword.all ∨ ∃ s ∈ catalog.suites, word ∈ s.names

/-- Two words with one meaning: keywords for one class, or names of one suite. -/
inductive Synonym (catalog : Catalog) : Text → Text → Prop where
  | keyword {word other : Text} {p : Predicate} (hword : (word, p) ∈ Keyword.table)
      (hother : (other, p) ∈ Keyword.table) : Synonym catalog word other
  | suite {word other : Text} {s : Suite} (hs : s ∈ catalog.suites) (hword : word ∈ s.names)
      (hother : other ∈ s.names) : Synonym catalog word other

/-- Two wordings of the terms of a token.  One is made of the other by putting the terms in another
order, by saying a term once more, by exchanging a word for a synonym, or by undoing this. -/
inductive Rewords (catalog : Catalog) : List Text → List Text → Prop where
  | permuted {words others : List Text} (h : words.Perm others) : Rewords catalog words others
  | repeated {word : Text} {words : List Text} (h : word ∈ words) :
      Rewords catalog words (word :: words)
  | exchanged {word other : Text} (h : Synonym catalog word other) (words : List Text) :
      Rewords catalog (word :: words) (other :: words)
  | symm {words others : List Text} (h : Rewords catalog words others) :
      Rewords catalog others words
  | trans {words others last : List Text} (h : Rewords catalog words others)
      (h' : Rewords catalog others last) : Rewords catalog words last

/-- The text stands in the segment, with blanks around it or not. -/
def Surrounds (segment text : Text) : Prop :=
  ∃ before behind, (∀ c ∈ before ++ behind, Text.isAsciiBlank c = true) ∧
    segment = before ++ text ++ behind

/-- A token with known terms, and a segment that spells it otherwise: with the same sign, another
wording of not more terms than a token may have, and blanks around it or not. -/
inductive Respells (catalog : Catalog) : Text → Text → Prop where
  | strength {segment : Text} (h : Surrounds segment (.of "@STRENGTH")) :
      Respells catalog (.of "@STRENGTH") segment
  | terms {op : Operation} {body segment : Text} {words others : List Text}
      (hop : op ≠ .sortByStrength) (hphrase : Phrase body words)
      (hknown : ∀ word ∈ words, Known catalog word) (hothers : Rewords catalog words others)
      (hlen : others.length ≤ Limits.termsPerToken)
      (h : Surrounds segment (op.sign ++ join ['+'] others)) :
      Respells catalog (op.sign ++ body) segment

/-- A rule string, and another one that spells its tokens otherwise, each in its turn. -/
def Respelled (catalog : Catalog) (input other : Text) : Prop :=
  ∃ tokens segments, HasTokens input tokens ∧ List.Forall₂ (Respells catalog) tokens segments ∧
    other = join [':'] segments

variable {catalog : Catalog} {word other : Text} {words others : List Text} {s : Suite}

/-! ### Meanings -/

/-- A word stands for one class. -/
theorem Stands.unique {p q : Predicate} (hp : Stands catalog word p) (hq : Stands catalog word q) :
    p = q := by
  -- a keyword is not shaped like a name
  have clash : ∀ {r : Predicate}, (word, r) ∈ Keyword.table → ¬ SuiteShaped word := by
    intro r hr hshape
    have hnone := Keyword.meaning?_eq_none_of_looksLike (suiteShaped_iff.1 hshape)
    rw [Keyword.meaning?_of_mem _ hr] at hnone
    cases hnone
  cases hp with
  | keyword h =>
    cases hq with
    | keyword h' =>
      have hp := Keyword.meaning?_of_mem _ h
      have hq := Keyword.meaning?_of_mem _ h'
      exact Option.some.inj (hp.symm.trans hq)
    | suite hshape _ => exact absurd hshape (clash h)
  | suite hshape h =>
    cases hq with
    | keyword h' => exact absurd hshape (clash h')
    | suite _ h' =>
      cases h.symm.trans h'
      rfl

/-- The suite is in the class that the word stands for. -/
def Describes (catalog : Catalog) (s : Suite) (word : Text) : Prop :=
  ∃ p, Stands catalog word p ∧ p.accepts s = true

/-- A suite is in all classes that words stand for exactly if each word describes it. -/
theorem all_accepts_iff {ps : List Predicate} (h : List.Forall₂ (Stands catalog) words ps) :
    ps.all (·.accepts s) = true ↔ ∀ word ∈ words, Describes catalog s word := by
  induction h with
  | nil => simp
  | @cons word p _ _ hstands _ ih =>
    have hword : Describes catalog s word ↔ p.accepts s = true :=
      ⟨fun ⟨_, hq, hs⟩ => hq.unique hstands ▸ hs, fun hs => ⟨p, hstands, hs⟩⟩
    rw [List.all_cons, Bool.and_eq_true, ih, List.forall_mem_cons, hword]

theorem exists_forall₂_stands : ∀ {words : List Text},
    (∀ word ∈ words, ∃ p, Stands catalog word p) → ∃ ps, List.Forall₂ (Stands catalog) words ps
  | [], _ => ⟨[], .nil⟩
  | word :: rest, h => by
      obtain ⟨p, hp⟩ := h word List.mem_cons_self
      obtain ⟨ps, hps⟩ := exists_forall₂_stands fun v hv => h v (List.mem_cons_of_mem word hv)
      exact ⟨p :: ps, .cons hp hps⟩

/-! ### Synonyms -/

theorem Synonym.known (h : Synonym catalog word other) :
    Known catalog word ∧ Known catalog other := by
  cases h with
  | keyword hword hother =>
    exact ⟨.inl (mem_all_iff.2 ⟨_, hword⟩), .inl (mem_all_iff.2 ⟨_, hother⟩)⟩
  | suite hs hword hother => exact ⟨.inr ⟨_, hs, hword⟩, .inr ⟨_, hs, hother⟩⟩

/-- **What a word shares with its synonyms, all words of a wording share with those of another.** -/
theorem Rewords.forall_iff {P : Text → Prop}
    (hP : ∀ {word other}, Synonym catalog word other → (P word ↔ P other))
    (h : Rewords catalog words others) : (∀ word ∈ words, P word) ↔ ∀ word ∈ others, P word := by
  induction h with
  | permuted hperm => simp only [hperm.mem_iff]
  | repeated hword =>
    rw [List.forall_mem_cons]
    exact ⟨fun hall => ⟨hall _ hword, hall⟩, And.right⟩
  | exchanged hsynonym _ => rw [List.forall_mem_cons, List.forall_mem_cons, hP hsynonym]
  | symm _ ih => exact ih.symm
  | trans _ _ ih ih' => exact ih.trans ih'

theorem Rewords.known_iff (h : Rewords catalog words others) :
    (∀ word ∈ words, Known catalog word) ↔ ∀ word ∈ others, Known catalog word :=
  h.forall_iff fun hsynonym => iff_of_true hsynonym.known.1 hsynonym.known.2

/-- No step leaves nothing over, or makes something of nothing. -/
theorem Rewords.eq_nil_iff (h : Rewords catalog words others) : words = [] ↔ others = [] := by
  have hfalse := h.forall_iff (P := fun _ => False) fun _ => Iff.rfl
  rwa [← List.eq_nil_iff_forall_not_mem, ← List.eq_nil_iff_forall_not_mem] at hfalse

/-! ### Segments -/

/-- The blanks around a text that has none at its ends are those that are trimmed off. -/
theorem Surrounds.trim_eq {segment text : Text} (h : Surrounds segment text)
    (htrim : Text.trim text = text) : Text.trim segment = text := by
  have hself : Text.Pads text text := Text.pads_iff.2 htrim.symm
  exact (Text.Pads.eq_trim ⟨h, hself.no_leading_blank, hself.no_trailing_blank⟩).symm

theorem Surrounds.separator_not_mem {segment text : Text} (h : Surrounds segment text)
    (hsep : separator ∉ text) : separator ∉ segment := by
  obtain ⟨before, behind, hblank, rfl⟩ := h
  have hblanks : separator ∉ before ++ behind := fun hmem =>
    absurd (hblank separator hmem) (by decide)
  simp only [List.mem_append, not_or] at hblanks ⊢
  exact ⟨⟨hblanks.1, hsep⟩, hblanks.2⟩

/-- Within the limits, a rule string whose tokens all give rules is read as these. -/
theorem value_parse_of_gives {input : Text} {tokens : List Text} {rules : List Rule}
    (hbytes : Text.byteLength input ≤ Limits.ruleStringBytes)
    (hcount : tokens.length ≤ Limits.rules) (htokens : HasTokens input tokens)
    (hgives : List.Forall₂ (Gives catalog) tokens (rules.map some)) :
    (parse catalog input).value = .ok rules := by
  obtain ⟨clauses, hreads, hrules⟩ := forall₂_gives_iff.1 hgives
  obtain rfl := hasTokens_iff.1 htokens
  rw [List.length_map] at hcount
  refine value_parse_eq_ok_iff.2 ⟨hbytes, hcount, clauses, hreads, ?_⟩
  have hsome := congrArg (List.filterMap id) hrules
  rwa [List.filterMap_map, List.filterMap_map, Function.id_comp, Function.id_comp,
    List.filterMap_some] at hsome

/-! ### Catalogs with writable names -/

section Writable

variable (hnames : ∀ s ∈ catalog.suites, ∀ n ∈ s.names, Writable n)
include hnames

theorem Known.isWord (h : Known catalog word) : Word word := by
  rcases h with hkeyword | ⟨s, hs, hn⟩
  · obtain ⟨p, hp⟩ := mem_all_iff.1 hkeyword
    exact Keyword.word_of_mem hp
  · exact (hnames s hs word hn).word

theorem Known.isTerm (h : Known catalog word) : IsTerm word := by
  refine ⟨(h.isWord hnames).ne_nil, ?_⟩
  rcases h with hkeyword | ⟨s, hs, hn⟩
  · exact .inl hkeyword
  · exact .inr (suiteShaped_iff.2 (hnames s hs word hn).looksLike)

/-- Synonyms stand for the same class. -/
theorem Synonym.exists_stands (h : Synonym catalog word other) :
    ∃ p, Stands catalog word p ∧ Stands catalog other p := by
  cases h with
  | keyword hword hother => exact ⟨_, .keyword hword, .keyword hother⟩
  | @suite s hs hword hother =>
    have hstands : ∀ n ∈ s.names, Stands catalog n (.name [s.name]) := by
      intro n hn
      have hshape : SuiteShaped n := suiteShaped_iff.2 (hnames s hs n hn).looksLike
      exact .suite hshape (Catalog.lookup?_eq_some_iff.2 ⟨hs, hn⟩)
    exact ⟨_, hstands _ hword, hstands _ hother⟩

theorem Known.exists_stands (h : Known catalog word) : ∃ p, Stands catalog word p := by
  have hself : Synonym catalog word word := by
    rcases h with hkeyword | ⟨s, hs, hn⟩
    · obtain ⟨p, hp⟩ := mem_all_iff.1 hkeyword
      exact .keyword hp hp
    · exact .suite hs hn hn
  obtain ⟨p, hp, -⟩ := hself.exists_stands hnames
  exact ⟨p, hp⟩

/-- Two wordings describe the same suites. -/
theorem Rewords.describes_iff (h : Rewords catalog words others) :
    (∀ word ∈ words, Describes catalog s word) ↔ ∀ word ∈ others, Describes catalog s word := by
  refine h.forall_iff fun hsynonym => ?_
  obtain ⟨p, hword, hother⟩ := hsynonym.exists_stands hnames
  constructor
  · rintro ⟨q, hq, hs⟩
    exact ⟨p, hother, hword.unique hq ▸ hs⟩
  · rintro ⟨q, hq, hs⟩
    exact ⟨p, hword, hother.unique hq ▸ hs⟩

/-- Known words make a phrase, joined as they are. -/
theorem phrase_of_known (hne : words ≠ []) (hlen : words.length ≤ Limits.termsPerToken)
    (hknown : ∀ word ∈ words, Known catalog word) : Phrase (join ['+'] words) words := by
  have hwords : ∀ word ∈ words, Word word := fun word hw => (hknown word hw).isWord hnames
  refine ⟨⟨hne, fun word hw => (hwords word hw).no_termSeparator, rfl⟩, hlen,
    fun word hw => (hknown word hw).isTerm hnames, fun c hc => ?_⟩
  exact isLeadingMark_eq_false_iff.1 ((body_join hne hwords).no_leading_mark c hc)

/-- A token with known terms gives a rule for the suites that each of them describes. -/
theorem Phrase.exists_gives {op : Operation} (hop : op ≠ .sortByStrength) {body : Text}
    (h : Phrase body words) (hknown : ∀ word ∈ words, Known catalog word) :
    ∃ p, Gives catalog (op.sign ++ body) (some ⟨op, p⟩) ∧
      ∀ s, p.accepts s = true ↔ ∀ word ∈ words, Describes catalog s word := by
  obtain ⟨ps, hps⟩ := exists_forall₂_stands fun word hw => (hknown word hw).exists_stands hnames
  have haccepts := fun s => all_accepts_iff (s := s) hps
  cases hps with
  | nil => exact absurd rfl h.splits.ne_nil
  | cons hfirst hrest =>
    refine ⟨_, .rule hop h (.cons hfirst hrest), fun s => ?_⟩
    rw [accepts_foldl_and]
    exact haccepts s

/-! ### Tokens -/

/-- **A token spelled otherwise is one token still, and gives a rule that is alike.** -/
theorem Respells.exists_gives {token segment : Text} (h : Respells catalog token segment) :
    separator ∉ segment ∧ ∃ r q, Gives catalog token (some r) ∧
      Gives catalog (Text.trim segment) (some q) ∧ r.Alike catalog q := by
  cases h with
  | strength h =>
    rw [h.trim_eq (by decide)]
    exact ⟨h.separator_not_mem (by decide), _, _, .strength, .strength, rfl, fun _ _ => rfl⟩
  | @terms op _ _ _ others hop hphrase hknown hothers hlen h =>
    have hne : others ≠ [] := mt hothers.eq_nil_iff.2 hphrase.splits.ne_nil
    have hknown' : ∀ word ∈ others, Known catalog word := hothers.known_iff.1 hknown
    have hbody : Body (join ['+'] others) :=
      body_join hne fun word hw => (hknown' word hw).isWord hnames
    have hsep : separator ∉ op.sign ++ join ['+'] others := by
      rw [List.mem_append, not_or]
      exact ⟨separator_not_mem_sign op, hbody.no_separator⟩
    refine ⟨h.separator_not_mem hsep, ?_⟩
    rw [h.trim_eq (trim_sign_append op hbody)]
    obtain ⟨p, hp, hpaccepts⟩ := hphrase.exists_gives hnames hop hknown
    obtain ⟨q, hq, hqaccepts⟩ :=
      (phrase_of_known hnames hne hlen hknown').exists_gives hnames hop hknown'
    refine ⟨_, _, hp, hq, rfl, fun s _ => Bool.eq_iff_iff.2 ?_⟩
    rw [hpaccepts, hqaccepts, hothers.describes_iff hnames]

/-! ### Rule strings -/

/-- Token by token, what is spelled otherwise gives rules that are alike. -/
theorem exists_gives_of_forall₂ {tokens segments : List Text}
    (h : List.Forall₂ (Respells catalog) tokens segments) :
    (∀ segment ∈ segments, separator ∉ segment) ∧ ∃ rules others,
      List.Forall₂ (Gives catalog) tokens (rules.map some) ∧
      List.Forall₂ (Gives catalog) (segments.map Text.trim) (others.map some) ∧
      List.Forall₂ (Rule.Alike catalog) rules others := by
  induction h with
  | nil => exact ⟨by simp, [], [], .nil, .nil, .nil⟩
  | cons hfirst _ ih =>
    obtain ⟨hseps, rules, others, hrules, hothers, halike⟩ := ih
    obtain ⟨hsep, r, q, hr, hq, hrq⟩ := hfirst.exists_gives hnames
    exact ⟨List.forall_mem_cons.2 ⟨hsep, hseps⟩, r :: rules, q :: others, .cons hr hrules,
      .cons hq hothers, .cons hrq halike⟩

/-- **A rule string spelled otherwise is read, as rules that are alike**, if it is not too long. -/
theorem Respelled.exists_parse {input other : Text} {rules : List Rule}
    (h : Respelled catalog input other) (hrules : (parse catalog input).value = .ok rules)
    (hbytes : Text.byteLength other ≤ Limits.ruleStringBytes) :
    ∃ others, (parse catalog other).value = .ok others ∧
      List.Forall₂ (Rule.Alike catalog) rules others := by
  obtain ⟨tokens, segments, htokens, hspell, rfl⟩ := h
  obtain ⟨hinput, hcount, -⟩ := value_parse_eq_ok_iff.1 hrules
  obtain ⟨hseps, found, others, hfound, hothers, halike⟩ := exists_gives_of_forall₂ hnames hspell
  have hlen : tokens.length ≤ Limits.rules := by
    rwa [hasTokens_iff.1 htokens, List.length_map]
  have hsame : (parse catalog input).value = .ok found :=
    value_parse_of_gives hinput hlen htokens hfound
  cases hrules.symm.trans hsame
  refine ⟨others, value_parse_of_gives hbytes ?_ (hasTokens_iff.2 ?_) hothers, halike⟩
  · rwa [List.length_map, ← hspell.length_eq]
  · have hne : segments ≠ [] := fun hnil => by
      rw [hasTokens_iff.1 htokens, hnil] at hspell
      cases hspell
    exact congrArg (List.map Text.trim) (Text.pieces_join hne hseps).symm

end Writable

end CipherRules.RuleString
