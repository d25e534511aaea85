import CipherRules.Proofs.Yaml.Block
import CipherRules.Yaml.Reading

/-!
# YAML — Tokens of written documents

The tokens that a document of keys with texts is read into (`tokens_renderEntries`).  Each entry
takes three steps: one for the key, one for the colon, at which the reader finds out about the key
(`next?_key`, `next?_colon`), and one for the text in whichever style it is written
(`exists_next?_text`).
Between entries the reading stands at the start of a line (`AtLine`).
-/

namespace CipherRules.Yaml

open Text (withChar withText)

variable {c : Char} {t rest key : Text}

/-- A key that is written plain, and found to be a key. -/
structure IsPlainKey (key : Text) : Prop where
  ne_nil : key ≠ []
  length_le : key.length ≤ keyReach
  isAlpha : ∀ c ∈ key, c.isAlpha = true

/-- The start of a key, or the end of the document. -/
def StartsKey (t : Text) : Prop := ∀ c ∈ t.head?, c.isAlpha = true

theorem StartsKey.startsLine (h : StartsKey t) : StartsLine t := fun c hc =>
  ⟨isBlank_of_isAlpha (h c hc), isBreak_of_isAlpha (h c hc)⟩

/-! ### Written entries -/

/-- Whether a text is written without quotes. -/
def isWrittenPlain (t : Text) : Bool := Style.of t == .plain

/-- The tokens of an entry. -/
def entryTokens (e : Text × Text) : List Token :=
  [.key, .scalar e.1 true, .value, .scalar e.2 (isWrittenPlain e.2)]

/-- A text that is written plain begins with a character that has no meaning there. -/
theorem Style.exists_cons_of_plain (h : Style.of t = .plain) : ∃ c tail, t = c :: tail ∧
    isIndicator c = false ∧ ((c == '-' || c == '?' || c == ':') && atGap tail) = false ∧
      isBlank c = false := by
  obtain ⟨hescapes, hlooks, hmeaning⟩ := Style.of_eq_plain h
  have hprintable := isPrintable_of_not_needsEscapes hescapes
  obtain ⟨c, tail, rfl⟩ : ∃ c tail, t = c :: tail := List.exists_cons_of_ne_nil fun hnil => by
    subst hnil
    cases hmeaning
  simp only [looksPlain, Bool.and_eq_true, Bool.not_eq_true', bne_iff_ne, List.head?_cons, ne_eq,
    Option.some.injEq] at hlooks
  obtain ⟨⟨⟨⟨hstart, -⟩, -⟩, hspace⟩, -⟩ := hlooks
  simp only [startsStructure, Bool.or_eq_false_iff] at hstart
  obtain ⟨⟨⟨hindicator, hgap⟩, -⟩, -⟩ := hstart
  refine ⟨c, tail, rfl, hindicator, ?_, Bool.eq_false_iff.2 fun hblank => ?_⟩
  · simpa only [Bool.and_or_distrib_right, Bool.or_eq_false_iff] using hgap
  · exact hspace (eq_space_of_isBlank (hprintable c List.mem_cons_self) hblank)

/-- A written text begins on the line of its key. -/
theorem exists_render_cons (t : Text) : ∃ c body, render t = c :: body ∧ isBreak c = false ∧
    isBlank c = false ∧ c ≠ '#' ∧ c ≠ '\ufeff' := by
  rw [render]
  cases hstyle : Style.of t with
  | plain =>
    obtain ⟨hescapes, hlooks, -⟩ := Style.of_eq_plain hstyle
    have hprintable := isPrintable_of_not_needsEscapes hescapes
    obtain ⟨c, tail, rfl, hindicator, -, hblank⟩ := Style.exists_cons_of_plain hstyle
    refine ⟨c, tail, rfl, not_isBreak_of_looksPlain hlooks c List.mem_cons_self, hblank, ?_, ?_⟩
    · rintro rfl
      cases hindicator
    · exact Text.ne_of_test (hprintable c List.mem_cons_self) (by decide)
  | singleQuoted => exact ⟨_, _, rfl, rfl, rfl, by decide, by decide⟩
  | doubleQuoted => exact ⟨_, _, rfl, rfl, rfl, by decide, by decide⟩
  | literal => exact ⟨_, _, rfl, rfl, rfl, by decide, by decide⟩

/-- The line of a text ends behind it, unless the text is a block whose last line has ended. -/
theorem missingEnd_render (t : Text) : missingEnd false (render t) =
    if Style.of t = .literal then missingEnd true t else ['\n'] := by
  unfold render
  cases hstyle : Style.of t with
  | plain =>
    obtain ⟨-, hlooks, hmeaning⟩ := Style.of_eq_plain hstyle
    have hlast : ∀ c ∈ t.getLast?, isBreak c = false := fun c hc =>
      not_isBreak_of_looksPlain hlooks c (List.mem_of_getLast? hc)
    rw [missingEnd]
    cases hc : t.getLast? with
    | none => rfl
    | some c => simp [hlast c hc]
  | singleQuoted => exact missingEnd_append (List.cons_ne_nil '\'' []) _ _ false
  | doubleQuoted => exact missingEnd_append (List.cons_ne_nil '"' []) _ _ false
  | literal =>
    obtain ⟨-, hline, -⟩ := Style.of_eq_literal hstyle
    have hlast : (indentLines true (fun c => [c]) t).getLast? = t.getLast? := getLast?_indentLines
    have hlines : indentLines true (fun c => [c]) t ≠ [] := by
      intro hnil
      rw [hnil, List.getLast?_nil, eq_comm, List.getLast?_eq_none_iff] at hlast
      exact List.ne_nil_of_mem hline hlast
    rw [renderLiteral, missingEnd_append hlines _ false true, missingEnd, missingEnd, hlast]
    rfl

theorem renderEntries_cons (e : Text × Text) (entries : List (Text × Text)) :
    renderEntries (e :: entries) = e.1 ++ ':' :: ' ' ::
      (render e.2 ++ (missingEnd false (render e.2) ++ renderEntries entries)) := by
  obtain ⟨c, body, hrender, -⟩ := exists_render_cons e.2
  have hne : render e.2 ≠ [] := fun hnil => List.cons_ne_nil c body (hrender.symm.trans hnil)
  rw [renderEntries, List.flatMap_cons, endLine_eq, missingEnd_append hne _ false false]
  simp [renderEntries]

theorem startsKey_renderEntries {entries : List (Text × Text)}
    (hkeys : ∀ e ∈ entries, IsPlainKey e.1) : StartsKey (renderEntries entries) := by
  cases entries with
  | nil => exact fun c hc => by cases hc
  | cons e entries =>
    have hkey := hkeys e List.mem_cons_self
    obtain ⟨c, tail, hcons⟩ := List.exists_cons_of_ne_nil hkey.ne_nil
    rw [renderEntries_cons, hcons]
    intro d hd
    obtain rfl : c = d := Option.some.inj hd
    exact hkey.isAlpha c (hcons ▸ List.mem_cons_self)

/-- An entry has a key, a colon and a space at least. -/
theorem length_le_length_renderEntries {entries : List (Text × Text)}
    (hkeys : ∀ e ∈ entries, IsPlainKey e.1) :
    3 * entries.length ≤ (renderEntries entries).length := by
  induction entries with
  | nil => exact Nat.le_refl 0
  | cons e entries ih =>
    obtain ⟨hkey, hkeys⟩ := List.forall_mem_cons.1 hkeys
    have hpos : 0 < e.1.length := List.length_pos_iff.2 hkey.ne_nil
    have hentries := ih hkeys
    simp only [renderEntries_cons, List.length_cons, List.length_append]
    omega

namespace Reading

/-! ### Finding tokens -/

/-- Without candidates there is nothing to drop. -/
theorem review?_of_key_eq_none {r : Reading} (hkey : r.key = none) (houter : r.outer = []) :
    r.review? = some r := by
  obtain ⟨cursor, tokens, blocks, key, outer, mayStartKey⟩ := r
  subst hkey houter
  rfl

/-- Blocks stay open in columns behind theirs. -/
theorem closeBlocks_of_lt {r : Reading} {bound : Nat} (h : ∀ b ∈ r.blocks, b < bound) :
    r.closeBlocks bound = r := by
  obtain ⟨cursor, tokens, blocks, key, outer, mayStartKey⟩ := r
  have hclosed : blocks.takeWhile (bound ≤ ·) = [] := by
    cases blocks with
    | nil => rfl
    | cons b blocks => simpa using h b List.mem_cons_self
  have hopen : blocks.dropWhile (bound ≤ ·) = blocks := by
    cases blocks with
    | nil => rfl
    | cons b blocks => simpa using h b List.mem_cons_self
  simp [closeBlocks, hclosed, hopen]

/-- The next token, where no block ends before it and no key comes too late. -/
theorem next?_eq {r s u : Reading} (htoken : r.toToken = s) (hreview : s.review? = some s)
    (hblocks : ∀ b ∈ s.blocks, b ≤ s.column) (hnext : s.token? = some u)
    (hlater : u.review? = some u) : r.next? = some u := by
  rw [next?, htoken, hreview]
  simp only [closeBlocks_of_lt fun b hb => Nat.lt_succ_of_le (hblocks b hb), hnext, hlater]

/-- Nothing is skipped before a character that begins a token. -/
theorem skip_cons {inBrackets mayStartKey : Bool} {p : Place} (hbreak : isBreak c = false)
    (hblank : isBlank c = false) (hcomment : c ≠ '#') (hmark : c ≠ '\ufeff') :
    skip inBrackets mayStartKey false p (c :: rest) = (mayStartKey, ⟨p, c :: rest⟩) := by
  rw [isBlank, Bool.or_eq_false_iff, beq_eq_false_iff_ne, beq_eq_false_iff_ne] at hblank
  simp [skip, hbreak, hblank, hcomment, hmark]

theorem startsWithMark_of_ne {mark : Char} (h : c ≠ mark) (rest : Text) :
    startsWithMark mark (c :: rest) = false := by
  match rest with
  | [] => rfl
  | [_] => rfl
  | _ :: _ :: _ => simp [startsWithMark, h]

/-- A plain scalar may start with any character but an indicator and a mark before a gap. -/
theorem startsPlain_of_not_isIndicator (hblank : isBlank c = false)
    (hindicator : isIndicator c = false)
    (hgap : ((c == '-' || c == '?' || c == ':') && atGap rest) = false) :
    startsPlain false c rest = true := by
  have hmarks : (Text.of ",[]\x7b\x7d#&*!|>'\"%@`").contains c = false := by
    have hall : ∀ mark ∈ Text.of ",[]\x7b\x7d#&*!|>'\"%@`", isIndicator mark = true :=
      List.all_eq_true.1 rfl
    rw [List.contains_eq_mem, decide_eq_false_iff_not]
    exact fun hmem => Bool.false_ne_true (hindicator.symm.trans (hall c hmem))
  have hnogap : (c == '-' || c == '?' || c == ':') = true → atGap rest = false := by
    intro hmark
    rw [hmark, Bool.true_and] at hgap
    exact hgap
  have hnoblank : atGap rest = false → startsWith isBlank rest = false := by
    intro h
    cases rest with
    | nil => rfl
    | cons d rest => exact (Bool.or_eq_false_iff.1 h).1
  rw [startsPlain]
  split_ifs with hdash hother
  · rw [hnoblank (hnogap (by rw [hdash]; rfl))]
    rfl
  · rw [hnogap (by rw [Bool.or_assoc, hother, Bool.or_true])]
    rfl
  · rw [hblank, hmarks]
    rfl

/-- A plain scalar is what begins with no indicator. -/
theorem token?_eq_plainScalar? {r : Reading} (hrest : r.cursor.rest = c :: rest)
    (houter : r.outer = []) (hline : r.column ≠ 0 ∨ c.isAlpha = true) (hblank : isBlank c = false)
    (hindicator : isIndicator c = false)
    (hgap : ((c == '-' || c == '?' || c == ':') && atGap rest) = false) :
    r.token? = r.plainScalar? := by
  have hmark : ∀ mark, isIndicator mark = true → (c == mark) = false := by
    rintro mark hmark
    refine beq_eq_false_iff_ne.2 ?_
    rintro rfl
    exact Bool.false_ne_true (hindicator.symm.trans hmark)
  have hboundary : ∀ mark, mark.isAlpha = false →
      (r.column == 0 && startsWithMark mark (c :: rest)) = false := by
    intro mark hmark
    rcases hline with hcolumn | halpha
    · rw [beq_eq_false_iff_ne.2 hcolumn, Bool.false_and]
    · rw [startsWithMark_of_ne (Text.ne_of_test halpha hmark), Bool.and_false]
  have hbrackets : r.inBrackets = false := by rw [inBrackets, houter]; rfl
  have hstarts := startsPlain_of_not_isIndicator hblank hindicator hgap
  simp only [Bool.and_or_distrib_right, Bool.or_eq_false_iff] at hgap
  simp only [token?, hrest, hbrackets, hstarts, hgap, hmark '%' rfl, hmark '[' rfl,
    hmark '\x7b' rfl, hmark ']' rfl, hmark '\x7d' rfl, hmark ',' rfl, hmark '*' rfl,
    hmark '&' rfl, hmark '!' rfl, hmark '|' rfl, hmark '>' rfl, hmark '\'' rfl, hmark '"' rfl,
    hboundary '-' rfl, hboundary '.' rfl, Bool.and_false, Bool.false_and, Bool.false_or,
    Bool.false_eq_true, if_false, if_true]

theorem plainScalar?_eq (r : Reading) {s : Reading} {content : Text} {endsLine : Bool}
    {cursor : Cursor} (hsave : r.saveKey? = some s)
    (hread : plain? r.inBrackets r.margin r.cursor.place .empty r.cursor.rest =
      some (content, endsLine, cursor)) :
    r.plainScalar? = some ((s.allowKey endsLine).pushTo (.scalar content true) cursor) := by
  rw [plainScalar?, hsave, hread]

/-! ### Keys -/

/-- The reading at the start of a line, with the tokens before it and the blocks that are open. -/
def atLine (line : Nat) (before : List Token) (blocks : List Nat) (rest : Text) : Reading :=
  ⟨⟨⟨line, 0⟩, rest⟩, before, blocks, none, [], true⟩

/-- The reading stands at the start of a line, or comes there before the next token. -/
def AtLine (r : Reading) (before : List Token) (blocks : List Nat) (rest : Text) : Prop :=
  ∃ line, r.toToken = atLine line before blocks rest

/-- The reading behind a key on a line, before the colon. -/
def behindKey (line : Nat) (before : List Token) (blocks : List Nat) (key rest : Text) : Reading :=
  ⟨⟨⟨line, key.length⟩, ':' :: ' ' :: rest⟩, .scalar key true :: before, blocks,
    some ⟨before.length, ⟨line, 0⟩, blocks.head? == some 0⟩, [], false⟩

/-- The reading behind the colon of an entry. -/
def behindColon (p : Place) (before : List Token) (rest : Text) : Reading :=
  ⟨⟨p, ' ' :: rest⟩, .value :: before, [0], none, [], false⟩

/-- Open blocks at the margin end nowhere. -/
theorem le_of_mem_blocks {blocks : List Nat} (h : blocks = [] ∨ blocks = [0]) (column : Nat) :
    ∀ b ∈ blocks, b ≤ column := by
  rintro b hb
  rcases h with rfl | rfl
  · exact absurd hb List.not_mem_nil
  · exact (List.mem_singleton.1 hb).symm ▸ Nat.zero_le column

/-- The colon of a key that is not too long does not come too late. -/
theorem review?_behindKey {line : Nat} {before : List Token} {blocks : List Nat}
    (h : key.length ≤ keyReach) : (behindKey line before blocks key rest).review? =
      some (behindKey line before blocks key rest) := by
  have hstale : ¬ keyReach < key.length := Nat.not_lt.2 h
  simp [review?, behindKey, stillPossible?, Candidate.isStale, hstale]

theorem isIndicator_of_isAlpha (h : c.isAlpha = true) : isIndicator c = false := by
  refine Bool.eq_false_iff.2 fun hindicator => ?_
  have hall : ∀ mark ∈ Text.of "#,[]\x7b\x7d&*!|>'\"%@`", mark.isAlpha = false :=
    fun mark hmark => Bool.eq_false_iff.2 (List.any_eq_false.1 rfl mark hmark)
  exact Bool.false_ne_true ((hall c (List.contains_iff_mem.1 hindicator)).symm.trans h)

/-- A key is a plain scalar, and the candidate for the colon. -/
theorem token?_key {line : Nat} {before : List Token} {blocks : List Nat} (hkey : IsPlainKey key) :
    (atLine line before blocks (key ++ ':' :: ' ' :: rest)).token? =
      some (behindKey line before blocks key rest) := by
  have hread := plain?_word (atLine line before blocks (key ++ ':' :: ' ' :: rest)).margin rest
    ⟨line, 0⟩ hkey.isAlpha
  have hplain := plainScalar?_eq (atLine line before blocks (key ++ ':' :: ' ' :: rest)) rfl hread
  obtain ⟨c, tail, rfl⟩ := List.exists_cons_of_ne_nil hkey.ne_nil
  have hc : c.isAlpha = true := hkey.isAlpha c List.mem_cons_self
  have hmark : ∀ mark, mark.isAlpha = false → (c == mark) = false := fun mark hmark =>
    beq_eq_false_iff_ne.2 (Text.ne_of_test hc hmark)
  have hgap : ((c == '-' || c == '?' || c == ':') &&
      atGap (tail ++ ':' :: ' ' :: rest)) = false := by
    rw [hmark '-' rfl, hmark '?' rfl, hmark ':' rfl]
    rfl
  refine (token?_eq_plainScalar? rfl rfl (Or.inr hc) (isBlank_of_isAlpha hc)
    (isIndicator_of_isAlpha hc) hgap).trans (hplain.trans ?_)
  simp [behindKey, atLine, Place.advance, allowKey, pushTo, push, column, inBrackets]

/-- **A step takes the key of an entry**, which is remembered for the colon. -/
theorem next?_key {r : Reading} {line : Nat} {before : List Token} {blocks : List Nat}
    (hkey : IsPlainKey key) (hblocks : blocks = [] ∨ blocks = [0])
    (h : r.toToken = atLine line before blocks (key ++ ':' :: ' ' :: rest)) :
    r.next? = some (behindKey line before blocks key rest) :=
  next?_eq h (review?_of_key_eq_none rfl rfl) (le_of_mem_blocks hblocks _) (token?_key hkey)
    (review?_behindKey hkey.length_le)

/-- The token in front of the first entry. -/
def opening : List Nat → List Token
  | [] => [.blockMappingStart]
  | _ :: _ => []

/-- **The next step takes the colon**, and puts the tokens of a key in front of what was
remembered. -/
theorem next?_colon {line : Nat} {before : List Token} {blocks : List Nat}
    (hkey : IsPlainKey key) (hblocks : blocks = [] ∨ blocks = [0]) :
    (behindKey line before blocks key rest).next? = some (behindColon ⟨line, key.length + 1⟩
      (.scalar key true :: .key :: (opening blocks ++ before)) rest) := by
  have hskip : (behindKey line before blocks key rest).toToken =
      behindKey line before blocks key rest := rfl
  refine next?_eq hskip (review?_behindKey hkey.length_le) (le_of_mem_blocks hblocks _) ?_
    (review?_of_key_eq_none rfl rfl)
  have htoken : (behindKey line before blocks key rest).token? =
      (behindKey line before blocks key rest).colon? := by
    simp [token?, behindKey, column, inBrackets, hkey.ne_nil, atGap, isBlank]
  rw [htoken]
  have htwo : before.length + 1 + 1 - before.length = 2 := by omega
  -- the first colon opens the block, the others find it open
  rcases hblocks with rfl | rfl
  · simp [colon?, behindKey, insert, openBlock, needsBlock, margin, inBrackets, behindColon,
      opening, pushMark, pushTo, push, allowKey, Place.advance, htwo]
  · simp [colon?, behindKey, insert, openBlock, needsBlock, margin, inBrackets, behindColon,
      opening, pushMark, pushTo, push, allowKey, Place.advance]

/-! ### Texts -/

/-- The reading before a text on the line of its key. -/
def beforeText (p : Place) (before : List Token) (rest : Text) : Reading :=
  ⟨⟨p, rest⟩, before, [0], none, [], false⟩

theorem toToken_behindColon {p : Place} {before : List Token} (hbreak : isBreak c = false)
    (hblank : isBlank c = false) (hcomment : c ≠ '#') (hmark : c ≠ '\ufeff') :
    (behindColon p before (c :: rest)).toToken =
      beforeText p.next (.value :: before) (c :: rest) := by
  have hspace : skip false false false p (' ' :: c :: rest) =
      skip false false false p.next (c :: rest) := rfl
  rw [toToken]
  simp only [behindColon, inBrackets, List.isEmpty_nil, Bool.not_true, hspace,
    skip_cons hbreak hblank hcomment hmark]
  rfl

/-! What is at the cursor shows in its first character. -/

section Tokens

variable {p : Place} {before : List Token}

theorem token?_singleQuote (hp : 0 < p.column) (body : Text) :
    (beforeText p before ('\'' :: body)).token? =
      (beforeText p before ('\'' :: body)).quoted? (single? p.next .empty body) := by
  simp [token?, beforeText, column, inBrackets, hp.ne']

theorem token?_doubleQuote (hp : 0 < p.column) (body : Text) :
    (beforeText p before ('"' :: body)).token? =
      (beforeText p before ('"' :: body)).quoted? (double? p.next .empty none body) := by
  simp [token?, beforeText, column, inBrackets, hp.ne']

theorem token?_bar (hp : 0 < p.column) (body : Text) :
    (beforeText p before ('|' :: body)).token? =
      (beforeText p before ('|' :: body)).blockScalar? false body := by
  simp [token?, beforeText, column, inBrackets, hp.ne']

theorem quoted?_beforeText {content later : Text} {q : Place} :
    (beforeText p before t).quoted? (some (content, ⟨q, later⟩)) =
      some (beforeText q (.scalar content false :: before) later) := rfl

theorem blockScalar?_beforeText {body content later : Text} {line : Nat}
    (hread : block? false 1 p body = some (content, ⟨⟨line, 0⟩, later⟩)) :
    (beforeText p before t).blockScalar? false body =
      some (atLine line (.scalar content false :: before) [0] later) := by
  have hmargin : (beforeText p before t).margin = 1 := rfl
  have hplace : (beforeText p before t).cursor.place = p := rfl
  rw [blockScalar?, hmargin, hplace, hread]
  rfl

/-! The texts in their styles -/

theorem token?_plain (hstyle : Style.of t = .plain) (hp : 0 < p.column) (hrest : StartsKey rest) :
    (beforeText p before (t ++ '\n' :: rest)).token? =
      some (atLine (p.line + 1) (.scalar t true :: before) [0] rest) := by
  obtain ⟨hescapes, hlooks, -⟩ := Style.of_eq_plain hstyle
  have hread := plain?_of_looksPlain (isPrintable_of_not_needsEscapes hescapes) hlooks
    hrest.startsLine hp
  obtain ⟨c, tail, rfl, hindicator, hgap, hblank⟩ := Style.exists_cons_of_plain hstyle
  rw [← atGap_append_break tail rest] at hgap
  have hplain := plainScalar?_eq (beforeText p before (c :: tail ++ '\n' :: rest)) rfl hread
  have hcolumn : (beforeText p before (c :: tail ++ '\n' :: rest)).column ≠ 0 := hp.ne'
  exact (token?_eq_plainScalar? rfl rfl (Or.inl hcolumn) hblank hindicator hgap).trans hplain

theorem token?_singleQuoted (hstyle : Style.of t = .singleQuoted) (hp : 0 < p.column) :
    ∃ q, (beforeText p before (renderSingle t ++ '\n' :: rest)).token? =
      some (beforeText q (.scalar t false :: before) ('\n' :: rest)) := by
  obtain ⟨hescapes, hline, hbreaks⟩ := Style.of_eq_singleQuoted hstyle
  obtain ⟨body, q, hbody, hread⟩ :=
    single?_renderSingle hescapes hline hbreaks (p := p.next) (Nat.succ_pos _) rest
  exact ⟨q, by rw [hbody, token?_singleQuote hp, hread, quoted?_beforeText]⟩

theorem token?_doubleQuoted (hp : 0 < p.column) :
    ∃ q, (beforeText p before (renderDouble t ++ rest)).token? =
      some (beforeText q (.scalar t false :: before) rest) := by
  obtain ⟨body, q, hbody, hread⟩ := double?_renderDouble (p := p.next) (Nat.succ_pos _) t rest
  exact ⟨q, by rw [hbody, token?_doubleQuote hp, hread, quoted?_beforeText]⟩

theorem token?_literal (hstyle : Style.of t = .literal) (hp : 0 < p.column)
    (hrest : StartsKey rest) :
    ∃ line, (beforeText p before (renderLiteral t ++ (missingEnd true t ++ rest))).token? =
      some (atLine line (.scalar t false :: before) [0] rest) := by
  obtain ⟨hescapes, hline, -⟩ := Style.of_eq_literal hstyle
  obtain ⟨body, line, hbody, hread⟩ :=
    block?_renderLiteral hescapes (List.ne_nil_of_mem hline) hrest.startsLine p
  exact ⟨line, by rw [hbody, token?_bar hp, blockScalar?_beforeText hread]⟩

end Tokens

theorem skip_of_startsKey (h : StartsKey rest) {inBrackets mayStartKey : Bool} {p : Place} :
    skip inBrackets mayStartKey false p rest = (mayStartKey, ⟨p, rest⟩) := by
  cases rest with
  | nil => rfl
  | cons c rest =>
    have hc : c.isAlpha = true := h c rfl
    exact skip_cons (isBreak_of_isAlpha hc) (isBlank_of_isAlpha hc) (Text.ne_of_test hc rfl)
      (Text.ne_of_test hc rfl)

/-- At the start of a line nothing is skipped before a key. -/
theorem atLine_atLine (h : StartsKey rest) (line : Nat) (before : List Token) (blocks : List Nat) :
    AtLine (atLine line before blocks rest) before blocks rest :=
  ⟨line, by simp only [toToken, atLine, skip_of_startsKey h]⟩

/-- From the end of a line the reading comes to the start of the next. -/
theorem atLine_beforeText (h : StartsKey rest) (p : Place) (before : List Token) :
    AtLine (beforeText p before ('\n' :: rest)) before [0] rest := by
  have hline : skip false false false p ('\n' :: rest) =
      skip false true false p.nextLine rest := rfl
  refine ⟨p.line + 1, ?_⟩
  rw [toToken]
  simp only [beforeText, inBrackets, List.isEmpty_nil, Bool.not_true, hline, skip_of_startsKey h]
  rfl

/-- A step takes a text, and comes to the start of a line. -/
theorem exists_token?_text (t : Text) {p : Place} (before : List Token) (hp : 0 < p.column)
    (hrest : StartsKey rest) : ∃ r,
      (beforeText p before (render t ++ (missingEnd false (render t) ++ rest))).token? = some r ∧
      r.review? = some r ∧ AtLine r (.scalar t (isWrittenPlain t) :: before) [0] rest := by
  rw [missingEnd_render, isWrittenPlain]
  unfold render
  cases hstyle : Style.of t with
  | plain =>
    exact ⟨_, token?_plain hstyle hp hrest, review?_of_key_eq_none rfl rfl,
      atLine_atLine hrest _ _ _⟩
  | singleQuoted =>
    obtain ⟨q, htoken⟩ := token?_singleQuoted hstyle hp
    exact ⟨_, htoken, review?_of_key_eq_none rfl rfl, atLine_beforeText hrest q _⟩
  | doubleQuoted =>
    obtain ⟨q, htoken⟩ := token?_doubleQuoted hp
    exact ⟨_, htoken, review?_of_key_eq_none rfl rfl, atLine_beforeText hrest q _⟩
  | literal =>
    obtain ⟨line, htoken⟩ := token?_literal hstyle hp hrest
    exact ⟨_, htoken, review?_of_key_eq_none rfl rfl, atLine_atLine hrest line _ _⟩

/-- **The third step takes the text of an entry**, up to the start of the next line. -/
theorem exists_next?_text (t : Text) (p : Place) (before : List Token) (hrest : StartsKey rest) :
    ∃ r, (behindColon p before (render t ++ (missingEnd false (render t) ++ rest))).next? =
        some r ∧
      AtLine r (.scalar t (isWrittenPlain t) :: .value :: before) [0] rest := by
  obtain ⟨r, htoken, hreview, hline⟩ :=
    exists_token?_text t (p := p.next) (.value :: before) (Nat.succ_pos _) hrest
  obtain ⟨c, body, hrender, hbreak, hblank, hcomment, hmark⟩ := exists_render_cons t
  refine ⟨r, ?_, hline⟩
  rw [hrender, List.cons_append] at htoken ⊢
  exact next?_eq (toToken_behindColon hbreak hblank hcomment hmark)
    (review?_of_key_eq_none rfl rfl) (le_of_mem_blocks (Or.inr rfl) _) htoken hreview

/-! ### Entries -/

theorem finish_of_next? {r s : Reading} (hnext : r.next? = some s)
    (hmore : r.tokens.head? ≠ some .endOfInput) (bound : Nat) :
    finish (bound + 1) r = finish bound s := by
  rw [finish, if_neg (by simpa using hmore), hnext]

/-- **Three steps take an entry.** -/
theorem exists_finish_entry {r : Reading} {before : List Token} {blocks : List Nat}
    {e : Text × Text} (hkey : IsPlainKey e.1) (hblocks : blocks = [] ∨ blocks = [0])
    (hmore : before.head? ≠ some .endOfInput) (hrest : StartsKey rest)
    (h : AtLine r before blocks (e.1 ++ ':' :: ' ' ::
      (render e.2 ++ (missingEnd false (render e.2) ++ rest)))) :
    ∃ s, AtLine s ((entryTokens e).reverse ++ (opening blocks ++ before)) [0] rest ∧
      ∀ bound, finish (bound + 3) r = finish bound s := by
  obtain ⟨line, hline⟩ := h
  obtain ⟨s, htext, hs⟩ := exists_next?_text e.2 ⟨line, e.1.length + 1⟩
    (.scalar e.1 true :: .key :: (opening blocks ++ before)) hrest
  have htokens : r.tokens = before := congrArg Reading.tokens hline
  refine ⟨s, hs, fun bound => ?_⟩
  rw [finish_of_next? (next?_key hkey hblocks hline) (htokens ▸ hmore) (bound + 2),
    finish_of_next? (next?_colon hkey hblocks) (by simp [behindKey]) (bound + 1),
    finish_of_next? htext (by simp [behindColon]) bound]

/-- **At the end of the document the block ends**, and there are no more tokens. -/
theorem finish_end {r : Reading} {before : List Token} (hmore : before.head? ≠ some .endOfInput)
    (h : AtLine r before [0] []) (bound : Nat) :
    finish (bound + 2) r = before.reverse ++ [.blockEnd, .endOfInput] := by
  obtain ⟨line, hline⟩ := h
  have htokens : r.tokens = before := congrArg Reading.tokens hline
  have hnext : r.next? =
      some ⟨⟨⟨line, 0⟩, []⟩, .endOfInput :: .blockEnd :: before, [], none, [], false⟩ :=
    next?_eq hline (review?_of_key_eq_none rfl rfl) (le_of_mem_blocks (Or.inr rfl) _) rfl rfl
  rw [finish_of_next? hnext (htokens ▸ hmore), finish, if_pos (by rfl)]
  simp

/-- **The rest of the entries**, by induction on them. -/
theorem finish_renderEntries {entries : List (Text × Text)} : ∀ {r : Reading} {before : List Token}
    {bound : Nat}, (∀ e ∈ entries, IsPlainKey e.1) → before.head? ≠ some .endOfInput →
    AtLine r before [0] (renderEntries entries) → 3 * entries.length + 2 ≤ bound →
    finish bound r = before.reverse ++ entries.flatMap entryTokens ++ [.blockEnd, .endOfInput] := by
  induction entries with
  | nil =>
    intro r before bound _ hmore h hbound
    obtain ⟨n, rfl⟩ := Nat.exists_eq_add_of_le' hbound
    rw [List.flatMap_nil, List.append_nil]
    exact finish_end hmore h n
  | cons e entries ih =>
    intro r before bound hkeys hmore h hbound
    obtain ⟨hkey, hkeys⟩ := List.forall_mem_cons.1 hkeys
    obtain ⟨n, rfl⟩ : ∃ n, bound = n + 3 := ⟨bound - 3, by simp at hbound; omega⟩
    rw [renderEntries_cons] at h
    obtain ⟨s, hs, hfinish⟩ :=
      exists_finish_entry hkey (Or.inr rfl) hmore (startsKey_renderEntries hkeys) h
    rw [hfinish, ih hkeys (by simp [entryTokens]) hs (by simp at hbound; omega)]
    simp [opening]

end Reading

/-- **The tokens of a document of texts**: one block, with the tokens of its entries. -/
theorem tokens_renderEntries {e : Text × Text} {entries : List (Text × Text)}
    (hkeys : ∀ d ∈ e :: entries, IsPlainKey d.1) :
    tokens (renderEntries (e :: entries)) =
      .blockMappingStart :: ((e :: entries).flatMap entryTokens) ++
        [.blockEnd, .endOfInput] := by
  obtain ⟨hkey, hothers⟩ := List.forall_mem_cons.1 hkeys
  have hprintable : ∀ c ∈ renderEntries (e :: entries), isPrintable c = true := fun c =>
    isPrintable_of_mem_renderEntries fun d hd c hc =>
      isPrintable_of_isAlpha ((hkeys d hd).isAlpha c hc)
  have hallowed : (renderEntries (e :: entries)).all isAllowed = true :=
    List.all_eq_true.2 fun c hc => isAllowed_of_isPrintable (hprintable c hc)
  have hlength := length_le_length_renderEntries hkeys
  have hstart : Reading.AtLine (.start (renderEntries (e :: entries))) [] []
      (renderEntries (e :: entries)) :=
    Reading.atLine_atLine (startsKey_renderEntries hkeys) 0 [] []
  obtain ⟨n, hn⟩ : ∃ n, (renderEntries (e :: entries)).length = n + 3 :=
    ⟨_ - 3, (Nat.sub_add_cancel (by simp at hlength; omega)).symm⟩
  rw [renderEntries_cons] at hstart
  obtain ⟨s, hs, hfinish⟩ := Reading.exists_finish_entry hkey (Or.inl rfl) (by simp)
    (startsKey_renderEntries hothers) hstart
  rw [← renderEntries_cons] at hfinish
  rw [tokens, hallowed]
  simp only [Bool.not_true, Bool.false_eq_true, if_false, unifyBreaks_eq_self hprintable, hn,
    Nat.add_right_comm n 3 2, hfinish]
  rw [Reading.finish_renderEntries hothers (by simp [entryTokens]) hs
    (by simp at hlength; omega)]
  simp [Reading.opening]

end CipherRules.Yaml
