import CipherRules.Proofs.RuleString.Concatenation
import CipherRules.Proofs.RuleString.Unknown

/-!
# Rule strings — Location

Where the tokens of a rule string stand in it.  `StandsAt input n token` says that the token is
found at the byte that it names, behind `n` separators.

* `standsAt_tokens`: each token stands at its byte, whatever blanks and characters of several bytes
  are before it.
* `exists_first_fault`: a rule string that is refused for a token is refused for the first one that
  cannot be read.
* `rulesOf_of_reads`: tokens that are read are reported exactly if they name an unknown suite.
* `firstRefused_of_pieces`: the segments before that of a refused token are read on their own, and
  its own is refused.
* `badToken_stands_first`: so errors and reports point at the right tokens.
-/

namespace CipherRules.RuleString

open Text (Pads Splits pieces join byteLength utf8)

variable {catalog : Catalog} {input text : Text}

/-- The token is found in the text at the byte that it names, behind `n` separators. -/
def StandsAt (input : Text) (n : Nat) (token : Token) : Prop :=
  ∃ before behind, input = before ++ token.text ++ behind ∧ byteLength before = token.position ∧
    before.count ':' = n

/-- The bytes that follow the position of the token are its bytes. -/
theorem StandsAt.utf8_eq {n : Nat} {token : Token} (h : StandsAt input n token) :
    ((utf8 input).drop token.position).take (byteLength token.text) = utf8 token.text := by
  obtain ⟨before, behind, rfl, hposition, -⟩ := h
  rw [← hposition]
  exact Text.utf8_slice before token.text behind

/-! ### Tokens -/

theorem Token.length_ofPieces (offset : Nat) (ps : List Text) :
    (Token.ofPieces offset ps).length = ps.length := by
  have hlen := congrArg List.length (Token.map_text_ofPieces offset ps)
  simpa using hlen

/-- The token of a piece among the others. -/
theorem getElem?_ofPieces {earlier later : List Text} {piece : Text} :
    (Token.ofPieces 0 (earlier ++ piece :: later))[earlier.length]? =
      some (.ofPiece (byteLength (earlier.flatMap (· ++ [separator]))) piece) := by
  rw [Token.ofPieces_append, ← Token.length_ofPieces 0 earlier,
    List.getElem?_append_right (Nat.le_refl _), Nat.sub_self, Nat.zero_add]
  rfl

/-- **Each token stands at its byte.** -/
theorem standsAt_tokens {n : Nat} {token : Token} (h : (tokens input)[n]? = some token) :
    StandsAt input n token := by
  have hn : n < (pieces separator input).length := by
    rw [← length_tokens]
    exact (List.getElem?_eq_some_iff.1 h).1
  obtain ⟨earlier, piece, later, hpieces, rfl⟩ : ∃ earlier piece later,
      pieces separator input = earlier ++ piece :: later ∧ earlier.length = n := by
    refine ⟨(pieces separator input).take n, (pieces separator input)[n],
      (pieces separator input).drop (n + 1), ?_, List.length_take_of_le (Nat.le_of_lt hn)⟩
    rw [← List.drop_eq_getElem_cons hn, List.take_append_drop]
  rw [tokens, hpieces, getElem?_ofPieces] at h
  cases h
  have hsep : ∀ t ∈ earlier ++ piece :: later, separator ∉ t := fun t ht =>
    Text.not_mem_of_mem_pieces (hpieces ▸ ht)
  obtain ⟨behind, -, hbehind⟩ := Text.exists_trimRight_append (Text.trimLeft piece)
  have hpiece : piece = Text.leadingBlanks piece ++ Text.trim piece ++ behind := by
    rw [Text.trim, List.append_assoc, hbehind, Text.leadingBlanks_append_trimLeft]
  refine ⟨earlier.flatMap (· ++ [separator]) ++ Text.leadingBlanks piece,
    behind ++ later.flatMap (separator :: ·), ?_, Text.byteLength_append _ _, ?_⟩
  · rw [← Text.join_pieces separator input, hpieces, Text.join_append_cons]
    conv_lhs => rw [hpiece]
    simp only [Token.ofPiece, List.append_assoc]
  · -- the blanks are a part of the piece, which has no separator
    have hblanks : separator ∉ Text.leadingBlanks piece := fun hmem =>
      hsep piece (by simp) (List.takeWhile_subset _ hmem)
    have hcount := Text.count_flatMap_append_sep fun t ht => hsep t (List.mem_append_left _ ht)
    rw [List.count_append]
    exact (congrArg₂ (· + ·) hcount (List.count_eq_zero.2 hblanks)).trans (Nat.add_zero _)

/-! ### Faults -/

/-- The limits have no part in a refusal for a token. -/
theorem within_of_badToken {position : Nat} {fault : TokenFault}
    (h : (parse catalog input).value = .error (.badToken text position fault)) :
    byteLength input ≤ Limits.ruleStringBytes ∧ input.count ':' + 1 ≤ Limits.rules := by
  refine ⟨Nat.le_of_not_lt fun hlong => ?_, Nat.le_of_not_lt fun hmany => ?_⟩
  · rw [value_parse_of_tooLong hlong] at h
    cases h
  · by_cases hlong : Limits.ruleStringBytes < byteLength input
    · rw [value_parse_of_tooLong hlong] at h
      cases h
    · rw [value_parse_of_tooMany (Nat.le_of_not_lt hlong) hmany] at h
      cases h

/-- **The first token that cannot be read decides the error.** -/
theorem exists_first_fault {position : Nat} {fault : TokenFault}
    (h : (parse catalog input).value = .error (.badToken text position fault)) :
    ∃ earlier later, tokens input = earlier ++ ⟨text, position⟩ :: later ∧
      Clause.parse text = .error fault ∧
      ∀ t ∈ earlier, ∃ clause, Clause.parse t.text = .ok clause := by
  obtain ⟨hbytes, hcount⟩ := within_of_badToken h
  rw [parse_of_within hbytes hcount, value_rulesOf_eq_error_iff, List.findSome?_eq_some_iff] at h
  obtain ⟨earlier, ⟨text', position'⟩, later, htokens, hfault, hearlier⟩ := h
  obtain ⟨fault', hclause, he⟩ := Token.fault?_eq_some_iff.1 hfault
  cases he
  refine ⟨earlier, later, htokens, hclause, fun t ht => ?_⟩
  have hnone := hearlier t ht
  rw [Token.fault?] at hnone
  cases hread : Clause.parse t.text with
  | error fault => simp [hread] at hnone
  | ok clause => exact ⟨clause, rfl⟩

/-! ### Reports -/

/-- The report of a token that is left out. -/
def Token.ignored (t : Token) : Event := .ignoredToken t.text t.position

/-- The reports of the tokens that name an unknown suite. -/
def reports (catalog : Catalog) (ts : List Token) : List Event :=
  (ts.filter (NamesUnknown catalog ·.text)).map Token.ignored

/-- What one token is read as on its own. -/
theorem rulesOf_singleton {token : Token} {clause : Clause}
    (h : Clause.parse token.text = .ok clause) :
    rulesOf catalog [token] = ⟨reports catalog [token], .ok (clause.resolve? catalog).toList⟩ := by
  have hnone : clause.resolve? catalog = none ↔ NamesUnknown catalog token.text :=
    resolve?_eq_none_iff_namesUnknown h
  simp only [rulesOf, h, reports]
  cases hrule : clause.resolve? catalog with
  | none =>
    rw [List.filter_cons_of_pos (by simpa using hnone.1 hrule)]
    rfl
  | some r =>
    have hknown : ¬ NamesUnknown catalog token.text := fun hunknown => by
      rw [hnone.2 hunknown] at hrule
      cases hrule
    rw [List.filter_cons_of_neg (by simpa using hknown)]
    rfl

/-- Tokens that are read give the rules of their clauses, and are reported where they name an
unknown suite. -/
theorem rulesOf_of_reads (catalog : Catalog) : ∀ {ts : List Token},
    (∀ t ∈ ts, ∃ clause, Clause.parse t.text = .ok clause) →
    ∃ rules, rulesOf catalog ts = ⟨reports catalog ts, .ok rules⟩
  | [], _ => ⟨[], rfl⟩
  | token :: rest, h => by
      obtain ⟨clause, hclause⟩ := h token List.mem_cons_self
      obtain ⟨rules, hrest⟩ := rulesOf_of_reads catalog fun t ht =>
        h t (List.mem_cons_of_mem token ht)
      refine ⟨(clause.resolve? catalog).toList ++ rules, ?_⟩
      rw [rulesOf_cons, rulesOf_singleton hclause, hrest, Traced.append_of_ok rfl]
      simp only [reports, ← List.map_append, ← List.filter_append, List.singleton_append]
      rfl

/-- A rule string that is read has reported its tokens that name an unknown suite. -/
theorem events_parse_of_ok {rules : List Rule} (h : (parse catalog input).value = .ok rules) :
    (parse catalog input).events = reports catalog (tokens input) := by
  obtain ⟨hbytes, hcount, clauses, hreads, -⟩ := value_parse_eq_ok_iff.1 h
  rw [← length_tokens, length_tokens_eq_count] at hcount
  rw [← map_text_tokens] at hreads
  have hall := exists_reads_iff.1 ⟨clauses, hreads⟩
  obtain ⟨rules', hrules⟩ := rulesOf_of_reads catalog fun t (ht : t ∈ tokens input) =>
    hall t.text (List.mem_map_of_mem ht)
  rw [parse_of_within hbytes hcount, hrules]

/-- One that is refused for a token has reported those before it. -/
theorem events_parse_of_badToken {position : Nat} {fault : TokenFault} {earlier later : List Token}
    (h : (parse catalog input).value = .error (.badToken text position fault))
    (htokens : tokens input = earlier ++ ⟨text, position⟩ :: later)
    (hclause : Clause.parse text = .error fault)
    (hearlier : ∀ t ∈ earlier, ∃ clause, Clause.parse t.text = .ok clause) :
    (parse catalog input).events = reports catalog earlier := by
  obtain ⟨hbytes, hcount⟩ := within_of_badToken h
  obtain ⟨rules, hrules⟩ := rulesOf_of_reads catalog hearlier
  have hbad : (rulesOf catalog (⟨text, position⟩ :: later)).events = [] := by
    rw [rulesOf, hclause]
  rw [parse_of_within hbytes hcount, htokens, rulesOf_append, hrules, Traced.append_of_ok rfl, hbad,
    List.append_nil]

/-! ### Segments on their own -/

/-- A text without separator is one token. -/
theorem parse_of_not_mem (hsep : separator ∉ text)
    (hbytes : byteLength text ≤ Limits.ruleStringBytes) :
    parse catalog text = rulesOf catalog [.ofPiece 0 text] := by
  have hnone : text.count ':' = 0 := List.count_eq_zero.2 hsep
  rw [parse_of_within hbytes (by rw [hnone]; decide), tokens, Text.pieces_of_not_mem hsep]
  rfl

theorem exists_value_parse_of_clause {clause : Clause} (hsep : separator ∉ text)
    (hbytes : byteLength text ≤ Limits.ruleStringBytes)
    (h : Clause.parse (Text.trim text) = .ok clause) :
    ∃ rules, (parse catalog text).value = .ok rules := by
  have hread : Clause.parse (Token.ofPiece 0 text).text = .ok clause := h
  rw [parse_of_not_mem hsep hbytes, rulesOf_singleton hread]
  exact ⟨_, rfl⟩

theorem value_parse_of_fault (catalog : Catalog) {fault : TokenFault} (hsep : separator ∉ text)
    (hbytes : byteLength text ≤ Limits.ruleStringBytes)
    (h : Clause.parse (Text.trim text) = .error fault) :
    (parse catalog text).value =
      .error (.badToken (Text.trim text) (byteLength (Text.leadingBlanks text)) fault) := by
  have hread : Clause.parse (Token.ofPiece 0 text).text = .error fault := h
  rw [parse_of_not_mem hsep hbytes, rulesOf, hread, Token.ofPiece, Nat.zero_add]

/-- A piece of a text is no longer than the text. -/
theorem byteLength_le_of_mem_pieces {piece : Text} (h : piece ∈ pieces separator input) :
    byteLength piece ≤ byteLength input := by
  obtain ⟨earlier, later, hpieces⟩ := List.append_of_mem h
  rw [← Text.join_pieces separator input, hpieces, Text.join_append_cons, Text.byteLength_append,
    Text.byteLength_append]
  omega

/-- What stands between blanks is read on its own as it is with them, from its first byte on. -/
theorem value_parse_of_pads {segment : Text} {fault : TokenFault} (hpads : Pads segment text)
    (hsep : separator ∉ text) (hbytes : byteLength text ≤ Limits.ruleStringBytes)
    (h : Clause.parse text = .error fault) :
    (parse catalog text).value = .error (.badToken text 0 fault) := by
  have htrim : Text.trim text = text :=
    Text.trim_eq_self hpads.no_leading_blank hpads.no_trailing_blank
  have hblanks : Text.leadingBlanks text = [] := by
    cases htext : text with
    | nil => rfl
    | cons c rest =>
      have hc : Text.isAsciiBlank c = false := hpads.no_leading_blank c (by rw [htext]; rfl)
      exact List.takeWhile_cons_of_neg (by simp [hc])
  have hvalue := value_parse_of_fault catalog hsep hbytes (htrim.symm ▸ h)
  rwa [htrim, hblanks] at hvalue

/-! ### Errors and reports -/

/-- The `n`-th segment is the first one that is refused on its own, for a text without blanks around
it that is refused in the same way. -/
structure FirstRefused (catalog : Catalog) (segments : List Text) (n : Nat) (text : Text)
    (fault : TokenFault) : Prop where
  no_separator : ':' ∉ text
  no_leading_blank : ∀ c ∈ text.head?, Text.isAsciiBlank c = false
  no_trailing_blank : ∀ c ∈ text.getLast?, Text.isAsciiBlank c = false
  before_read : ∀ s ∈ segments.take n, ∃ rules, (parse catalog s).value = .ok rules
  segment_refused : ∃ segment, segments[n]? = some segment ∧
    ∃ p, (parse catalog segment).value = .error (.badToken text p fault)
  alone_refused : (parse catalog text).value = .error (.badToken text 0 fault)

/-- The segment of the first text that cannot be read is the first one refused. -/
theorem firstRefused_of_pieces {fault : TokenFault} {earlier later : List Text}
    (hbytes : byteLength input ≤ Limits.ruleStringBytes)
    (htexts : (pieces separator input).map Text.trim = earlier ++ text :: later)
    (hfault : Clause.parse text = .error fault)
    (hearlier : ∀ t ∈ earlier, ∃ clause, Clause.parse t = .ok clause) :
    FirstRefused catalog (pieces separator input) earlier.length text fault := by
  obtain ⟨before, rest, hpieces, rfl, hrest⟩ := List.map_eq_append_iff.1 htexts
  obtain ⟨segment, behind, rfl, rfl, -⟩ := List.map_eq_cons_iff.1 hrest
  have hshort : ∀ s ∈ pieces separator input, byteLength s ≤ Limits.ruleStringBytes := fun s hs =>
    Nat.le_trans (byteLength_le_of_mem_pieces hs) hbytes
  have hmem : segment ∈ pieces separator input := by simp [hpieces]
  have hpads : Pads segment (Text.trim segment) := Text.pads_trim segment
  have hsep : separator ∉ Text.trim segment := fun hc =>
    Text.not_mem_of_mem_pieces hmem (hpads.subset hc)
  exact {
    no_separator := hsep
    no_leading_blank := hpads.no_leading_blank
    no_trailing_blank := hpads.no_trailing_blank
    before_read := fun s hs => by
      rw [hpieces, List.length_map, List.take_left] at hs
      have hpiece : s ∈ pieces separator input := by simp [hpieces, hs]
      obtain ⟨clause, hread⟩ := hearlier (Text.trim s) (List.mem_map_of_mem hs)
      exact exists_value_parse_of_clause (Text.not_mem_of_mem_pieces hpiece) (hshort s hpiece) hread
    segment_refused := ⟨segment, by simp [hpieces], _, value_parse_of_fault catalog
      (Text.not_mem_of_mem_pieces hmem) (hshort segment hmem) hfault⟩
    alone_refused := value_parse_of_pads hpads hsep
      (Nat.le_trans hpads.byteLength_le (hshort segment hmem)) hfault }

/-- **An error points at the first token that cannot be read**, and the reports at the tokens before
it that are left out.  Every token stands at its byte, in its segment, between the blanks there.  If
a rule string is refused for one of them, the segments before it are read on their own, and its
segment is refused for it; so is the token alone, from its first byte on.  The reports are those of
the tokens that name an unknown suite: of those before the refused one, or of all if none is
refused. -/
theorem badToken_stands_first (catalog : Catalog) (input : Text) :
    ∃ (segments : List Text) (located : List Token), Splits ':' input segments ∧
      List.Forall₂ Pads segments (located.map Token.text) ∧
      (∀ (n : Nat) (token : Token), located[n]? = some token → StandsAt input n token ∧
        ((utf8 input).drop token.position).take (byteLength token.text) = utf8 token.text) ∧
      (∀ (text : Text) (position : Nat) (fault : TokenFault),
        (parse catalog input).value = .error (.badToken text position fault) →
        ∃ n : Nat, located[n]? = some ⟨text, position⟩ ∧
          FirstRefused catalog segments n text fault ∧
          (parse catalog input).events =
            ((located.take n).filter (NamesUnknown catalog ·.text)).map Token.ignored) ∧
      ∀ rules, (parse catalog input).value = .ok rules →
        (parse catalog input).events =
          (located.filter (NamesUnknown catalog ·.text)).map Token.ignored := by
  have hpads : List.Forall₂ Pads (pieces separator input) ((tokens input).map Token.text) := by
    rw [map_text_tokens, List.forall₂_map_right_iff]
    exact List.forall₂_same.2 fun piece _ => Text.pads_trim piece
  refine ⟨pieces separator input, tokens input, Text.splits_iff.2 rfl, hpads,
    fun n token h => ⟨standsAt_tokens h, (standsAt_tokens h).utf8_eq⟩,
    fun text position fault h => ?_, fun rules h => events_parse_of_ok h⟩
  obtain ⟨earlier, later, htokens, hclause, hearlier⟩ := exists_first_fault h
  have htexts : (pieces separator input).map Text.trim =
      earlier.map Token.text ++ text :: later.map Token.text := by
    rw [← map_text_tokens, htokens, List.map_append]
    rfl
  have hfirst : FirstRefused catalog (pieces separator input) (earlier.map Token.text).length text
      fault := firstRefused_of_pieces (within_of_badToken h).1 htexts hclause fun t ht => by
    obtain ⟨token, htoken, rfl⟩ := List.mem_map.1 ht
    exact hearlier token htoken
  refine ⟨earlier.length, by simp [htokens], List.length_map Token.text ▸ hfirst, ?_⟩
  rw [events_parse_of_badToken h htokens hclause hearlier, htokens, List.take_left]
  rfl

/-- The second token is left out, the third one names an unknown suite too and is refused; the é
counts as two bytes. -/
theorem badToken_stands_first_multibyte :
    (parse Catalog.builtin (.of " kRSA\t:é-X : !NO-SUCH+ß :kRSA")).value =
        .error (.badToken (.of "!NO-SUCH+ß") 14 .unknownKeyword) ∧
      (parse Catalog.builtin (.of " kRSA\t:é-X : !NO-SUCH+ß :kRSA")).events =
        [.ignoredToken (.of "é-X") 7] ∧
      (parse Catalog.builtin (.of "!NO-SUCH+ß")).value =
        .error (.badToken (.of "!NO-SUCH+ß") 0 .unknownKeyword) := by
  have hvalue : (parse Catalog.builtin (.of " kRSA\t:é-X : !NO-SUCH+ß :kRSA")).value =
      .error (.badToken (.of "!NO-SUCH+ß") 14 .unknownKeyword) := by decide +kernel
  obtain ⟨segments, located, -, -, -, hrefused, -⟩ :=
    badToken_stands_first Catalog.builtin (.of " kRSA\t:é-X : !NO-SUCH+ß :kRSA")
  obtain ⟨n, -, hfirst, -⟩ := hrefused _ _ _ hvalue
  exact ⟨hvalue, by decide +kernel, hfirst.alone_refused⟩

end CipherRules.RuleString
