import CipherRules.Catalog.Builtin
import CipherRules.Proofs.RuleString.Directive
import CipherRules.Proofs.RuleString.Reading

/-!
# Rule strings — Round trips

Writing undoes reading, as far as the limits allow.

A rule is *legible* (`Legible`) if its text is a token that is read as the rule.  Rules with a
directive of at most sixteen words are legible (`legible_of_directive`), and so are the rules of
every clause that can be read (`legible_of_resolve?`).  Legible rules, written out, are read as they
are (`value_parse_listText`).

* `value_parse_listText_of_parse`: what the rules of a rule string, written out, are read as.
* `value_parse_directive`: what a directive is read as.
-/

namespace CipherRules.RuleString

open Text (pieces join byteLength)

variable {catalog : Catalog} {p : Predicate} {d : Text}

/-! ### Directives -/

theorem directive?_eq_some_iff :
    p.directive? = some d ↔ p.height ≤ Limits.predicateDepth ∧ p.writeDirective? = some d := by
  rw [Predicate.directive?, Option.ite_none_right_eq_some, Predicate.withinDepth_iff]

/-- A directive joins at most thirty-two words for its predicate. -/
theorem exists_written_of_directive? (h : p.directive? = some d) :
    ∃ ws, Written p ws ∧ ws.length ≤ Limits.predicateDepth ∧ d = join [termSeparator] ws := by
  obtain ⟨hheight, hwrite⟩ := directive?_eq_some_iff.1 h
  obtain ⟨ws, hws, rfl⟩ := Written.of_writeDirective? hwrite
  exact ⟨ws, hws, Nat.le_trans hws.length_le_height hheight, rfl⟩

theorem Named.writable (hnamed : Named catalog p)
    (hwritable : ∀ s ∈ catalog.suites, Writable s.name) : ∀ n ∈ p.names, Writable n := by
  intro n hn
  obtain ⟨s, hs, rfl⟩ := hnamed n hn
  exact hwritable s hs

theorem pieces_join_of_written {ws : List Text} (hws : Written p ws)
    (hwords : ∀ w ∈ ws, Word w) : pieces termSeparator (join [termSeparator] ws) = ws :=
  Text.pieces_join hws.ne_nil fun w hw => (hwords w hw).no_termSeparator

/-- A sign and a directive of at most sixteen words are read as the rule that they are made of. -/
theorem parse_sign_directive (hwritable : ∀ s ∈ catalog.suites, Writable s.name)
    (hnamed : Named catalog p) (h : p.directive? = some d)
    (hlen : (pieces termSeparator d).length ≤ Limits.termsPerToken) {op : Operation}
    (hop : op ≠ .sortByStrength) :
    Body d ∧ ∃ clause, Clause.parse (op.sign ++ d) = .ok clause ∧
      clause.resolve? catalog = some ⟨op, p⟩ := by
  obtain ⟨ws, hws, -, rfl⟩ := exists_written_of_directive? h
  have hwords : ∀ w ∈ ws, Word w := fun w hw => hws.word (hnamed.writable hwritable) hw
  have hbody : Body (join [termSeparator] ws) := body_join hws.ne_nil hwords
  obtain ⟨first, others, q, hterms, hfirst, hothers⟩ := hws.reads hnamed
  refine ⟨hbody, .apply op first others, ?_, ?_⟩
  · rw [Clause.parse_sign_append hop hbody.ne_nil hbody.no_leading_mark, parseBody_eq_ok_iff]
    refine ⟨hbody.ne_nil, hbody.no_leading_mark, hlen, first, others, ?_, rfl⟩
    rw [pieces_join_of_written hws hwords, hterms]
  · rw [Clause.resolve?, hfirst]
    exact congrArg (Option.map _) hothers

/-! ### Legible rules -/

/-- A rule whose text is a token that is read as the rule. -/
structure Legible (catalog : Catalog) (r : Rule) : Prop where
  no_separator : separator ∉ r.text
  trim_text : Text.trim r.text = r.text
  reads : ∃ clause, Clause.parse r.text = .ok clause ∧ clause.resolve? catalog = some r

theorem legible_sortByStrength : Legible catalog .sortByStrength where
  no_separator := by decide
  trim_text := by decide
  reads := ⟨.sortByStrength, rfl, rfl⟩

theorem text_of_directive? {op : Operation} (hop : op ≠ .sortByStrength)
    (h : p.directive? = some d) : (Rule.mk op p).text = op.sign ++ d := by
  rw [Rule.text, if_neg hop, h]

/-- A rule with a directive of at most sixteen words is legible. -/
theorem legible_of_directive (hwritable : ∀ s ∈ catalog.suites, Writable s.name)
    (hnamed : Named catalog p) (h : p.directive? = some d)
    (hlen : (pieces termSeparator d).length ≤ Limits.termsPerToken) {op : Operation}
    (hop : op ≠ .sortByStrength) : Legible catalog ⟨op, p⟩ := by
  have htext : (Rule.mk op p).text = op.sign ++ d := text_of_directive? hop h
  obtain ⟨hbody, hreads⟩ := parse_sign_directive hwritable hnamed h hlen hop
  refine ⟨?_, ?_, ?_⟩
  · rw [htext, List.mem_append, not_or]
    exact ⟨separator_not_mem_sign op, hbody.no_separator⟩
  · rw [htext, trim_sign_append op hbody]
  · rw [htext]
    exact hreads

theorem exists_reads_of_legible : ∀ {rules : List Rule}, (∀ r ∈ rules, Legible catalog r) →
    ∃ clauses, Reads (rules.map (·.text)) clauses ∧
      rules = clauses.filterMap (·.resolve? catalog)
  | [], _ => ⟨[], rfl, rfl⟩
  | r :: rest, h => by
      obtain ⟨clauses, hreads, hrest⟩ :=
        exists_reads_of_legible fun q hq => h q (List.mem_cons_of_mem r hq)
      obtain ⟨clause, hclause, hr⟩ := (h r List.mem_cons_self).reads
      refine ⟨clause :: clauses, reads_cons_iff.2 ⟨clause, clauses, rfl, hclause, hreads⟩, ?_⟩
      rw [List.filterMap_cons, hr, ← hrest]

/-- Legible rules, written out, are read as they are. -/
theorem value_parse_listText {rules : List Rule} (hne : rules ≠ [])
    (hlegible : ∀ r ∈ rules, Legible catalog r) (hcount : rules.length ≤ Limits.rules)
    (hbytes : byteLength (Rule.listText rules) ≤ Limits.ruleStringBytes) :
    (parse catalog (Rule.listText rules)).value = .ok rules := by
  refine (value_parse_join_eq_ok_iff (by simpa using hne) (fun t ht => ?_) fun t ht => ?_).2
    ⟨hbytes, by rwa [List.length_map], exists_reads_of_legible hlegible⟩
  · obtain ⟨r, hr, rfl⟩ := List.mem_map.1 ht
    exact (hlegible r hr).no_separator
  · obtain ⟨r, hr, rfl⟩ := List.mem_map.1 ht
    exact (hlegible r hr).trim_text

/-- A clause that can be read gives a class of suites of the catalog with a directive of at most
sixteen words. -/
theorem exists_directive_of_resolve? (hwritable : ∀ s ∈ catalog.suites, Writable s.name)
    {clause : Clause} {r : Rule} (hsound : clause.Sound) (h : clause.resolve? catalog = some r) :
    Named catalog r.predicate ∧ ∃ d, r.predicate.directive? = some d ∧
      (pieces termSeparator d).length ≤ Limits.termsPerToken := by
  have hheight : r.predicate.height ≤ Limits.predicateDepth :=
    Clause.height_of_resolve? hsound h
  cases clause with
  | sortByStrength =>
    cases h
    exact ⟨fun n hn => absurd hn List.not_mem_nil, .of "ALL",
      directive?_eq_some_iff.2 ⟨hheight, by decide⟩, by decide⟩
  | apply op first others =>
    obtain ⟨-, hterms, hlen⟩ := hsound
    rw [Clause.resolve?] at h
    split at h
    · cases h
    · rename_i p hp
      obtain ⟨q, hq, rfl⟩ := Option.map_eq_some_iff.1 h
      have hlooks : ∀ s ∈ catalog.suites, looksLikeSuiteName s.name = true :=
        fun s hs => (hwritable s hs).looksLike
      have hfirst : first.Sound := hterms first List.mem_cons_self
      obtain ⟨w, hw⟩ := Term.written_of_resolve? hlooks hfirst hp
      obtain ⟨hnamed, ws, hws, hcount⟩ := Term.written_of_conjoin? hlooks
        (fun t ht => hterms t (List.mem_cons_of_mem first ht)) hw
        (Term.named_of_resolve? hfirst hp) hq
      have hwords : ∀ w ∈ ws, Word w := fun w hw => hws.word (hnamed.writable hwritable) hw
      -- a keyword may stand for several operands, so the directive may have fewer words
      obtain ⟨d, hd, hpieces⟩ :=
        hws.exists_writeDirective? fun w hw => (hwords w hw).no_termSeparator
      rw [List.length_singleton, Nat.add_comm] at hcount
      exact ⟨hnamed, d, directive?_eq_some_iff.2 ⟨hheight, hd⟩,
        Nat.le_trans hpieces (hcount ▸ hlen)⟩

/-- A clause that can be read gives a legible rule with a directive. -/
theorem legible_of_resolve? (hwritable : ∀ s ∈ catalog.suites, Writable s.name) {clause : Clause}
    {r : Rule} (hsound : clause.Sound) (h : clause.resolve? catalog = some r) :
    Legible catalog r ∧ ∃ d, r.predicate.directive? = some d := by
  obtain ⟨hnamed, d, hd, hfew⟩ := exists_directive_of_resolve? hwritable hsound h
  refine ⟨?_, d, hd⟩
  cases clause with
  | sortByStrength =>
    cases h
    exact legible_sortByStrength
  | apply op first others =>
    have hop : r.operation = op := by
      rw [Clause.resolve?] at h
      split at h
      · cases h
      · obtain ⟨q, -, rfl⟩ := Option.map_eq_some_iff.1 h
        rfl
    exact legible_of_directive hwritable hnamed hd hfew (hop ▸ hsound.1)

/-! ### Rule strings -/

/-- Each name of the catalog can stand in a rule string as it is. -/
theorem writable_builtin : ∀ s ∈ Catalog.builtin.suites, Writable s.name := by decide +kernel

/-- **What the rules of a rule string, written out, are read as**, from any catalog whose standard
names can stand in a rule string: the same rules, unless there are none or their text has become too
long.  Every rule is written as a directive, and the text is that of the rules it is read as.  The
names of the catalog that comes with the program can all stand in a rule string. -/
theorem value_parse_listText_of_parse :
    (∀ s ∈ Catalog.builtin.suites, Writable s.name) ∧
    ∀ catalog : Catalog, (∀ s ∈ catalog.suites, Writable s.name) →
      ∀ (input : Text) (rules : List Rule), (parse catalog input).value = .ok rules →
        (parse catalog (Rule.listText rules)).value =
          (if Limits.ruleStringBytes < byteLength (Rule.listText rules) then
            .error (.ruleStringTooLong (byteLength (Rule.listText rules)))
          else if rules = [] then .error (.badToken [] 0 .emptyToken)
          else .ok rules) ∧
        (∀ r ∈ rules, ∃ d, r.predicate.directive? = some d) ∧
        (rules ≠ [] → byteLength (Rule.listText rules) ≤ Limits.ruleStringBytes →
          (parse catalog (Rule.listText rules)).value.map Rule.listText =
            .ok (Rule.listText rules)) := by
  refine ⟨writable_builtin, fun catalog hwritable input rules h => ?_⟩
  obtain ⟨hcount, hclauses⟩ := exists_resolve?_of_parse h
  have hlegible : ∀ r ∈ rules, Legible catalog r ∧ ∃ d, r.predicate.directive? = some d := by
    intro r hr
    obtain ⟨clause, hsound, hrule⟩ := hclauses r hr
    exact legible_of_resolve? hwritable hsound hrule
  have hread : rules ≠ [] → byteLength (Rule.listText rules) ≤ Limits.ruleStringBytes →
      (parse catalog (Rule.listText rules)).value = .ok rules :=
    fun hne hbytes => value_parse_listText hne (fun r hr => (hlegible r hr).1) hcount hbytes
  refine ⟨?_, fun r hr => (hlegible r hr).2, fun hne hbytes => ?_⟩
  · split
    · rename_i hlong
      rw [parse, if_pos hlong]
    · rename_i hlong
      split
      · rename_i hnil
        rw [hnil]
        rfl
      · rename_i hne
        exact hread hne (Nat.le_of_not_lt hlong)
  · rw [hread hne hbytes]
    rfl

/-- Aliases are written canonically, and read as the same rules. -/
theorem value_parse_canonical :
    (parse Catalog.builtin (.of "kEDH+aNULL:!EXP")).value =
        .ok [⟨.add, Keyword.anonymous .dhe⟩, ⟨.delete, .exportGrade true⟩] ∧
      (parse Catalog.builtin (.of "ADH:!EXPORT")).value =
        .ok [⟨.add, Keyword.anonymous .dhe⟩, ⟨.delete, .exportGrade true⟩] := by
  have hread : (parse Catalog.builtin (.of "kEDH+aNULL:!EXP")).value =
      .ok [⟨.add, Keyword.anonymous .dhe⟩, ⟨.delete, .exportGrade true⟩] := rfl
  have htext : Rule.listText [⟨.add, Keyword.anonymous .dhe⟩, ⟨.delete, .exportGrade true⟩] =
      .of "ADH:!EXPORT" := by
    have hadd : (Keyword.anonymous .dhe).directive? = some (.of "ADH") :=
      directive?_eq_some_iff.2 ⟨by decide, by decide +kernel⟩
    have hdelete : (Predicate.exportGrade true).directive? = some (.of "EXPORT") :=
      directive?_eq_some_iff.2 ⟨by decide, by decide +kernel⟩
    rw [Rule.listText, List.map_cons, List.map_singleton, text_of_directive? (by decide) hadd,
      text_of_directive? (by decide) hdelete]
    rfl
  refine ⟨hread, ?_⟩
  have hagain := (value_parse_listText_of_parse.2 _ writable_builtin _ _ hread).1
  rw [htext] at hagain
  exact hagain

/-! ### Single directives -/

theorem byteLength_of_written (hnamed : Named Catalog.builtin p) {ws : List Text}
    (hws : Written p ws) {w : Text} (hw : w ∈ ws) : byteLength w + termSeparator.utf8Size ≤ 64 := by
  have short : ∀ v ∈ Keyword.all ++ Catalog.builtin.suites.map (·.name), byteLength v ≤ 63 := by
    decide +kernel
  refine Nat.succ_le_succ (short w (List.mem_append.2 ?_))
  refine (hws.mem_words hw).imp_right fun hname => ?_
  obtain ⟨s, hs, rfl⟩ := hnamed w hname
  exact List.mem_map_of_mem hs

/-- A body is the only token of its own text. -/
theorem tokens_of_body (h : Body d) : tokens d = [⟨d, 0⟩] := by
  have htrim : Text.trim d = d := Text.trim_eq_self h.no_leading_blank h.no_trailing_blank
  have hleading : Text.leadingBlanks d = [] := by
    obtain ⟨c, rest, rfl⟩ := List.exists_cons_of_ne_nil h.ne_nil
    exact List.takeWhile_cons_of_neg (by simp [h.no_leading_blank c rfl])
  rw [tokens, Text.pieces_of_not_mem h.no_separator, Token.ofPieces, Token.ofPiece, htrim, hleading]
  rfl

/-- Thirty-two short words are far below the limit. -/
theorem byteLength_directive_le (hnamed : Named Catalog.builtin p) (h : p.directive? = some d) :
    byteLength d ≤ Limits.ruleStringBytes := by
  obtain ⟨ws, hws, hcount, rfl⟩ := exists_written_of_directive? h
  have hle : byteLength (join [termSeparator] ws) ≤ ws.length * 64 :=
    Text.byteLength_join_le fun w hw => byteLength_of_written hnamed hws hw
  exact Nat.le_trans hle (Nat.le_trans (Nat.mul_le_mul_right 64 hcount) (by decide))

/-- A directive of at most sixteen words is read as the rule that adds its predicate. -/
theorem value_parse_of_few (hnamed : Named Catalog.builtin p) (h : p.directive? = some d)
    (hfew : (pieces termSeparator d).length ≤ Limits.termsPerToken) :
    (parse Catalog.builtin d).value = .ok [⟨.add, p⟩] := by
  have hlegible : Legible Catalog.builtin ⟨.add, p⟩ :=
    legible_of_directive writable_builtin hnamed h hfew (by decide)
  have hadd : Operation.add ≠ .sortByStrength := by decide
  have htext : Rule.listText [⟨.add, p⟩] = d := text_of_directive? hadd h
  have hread : (parse Catalog.builtin (Rule.listText [⟨.add, p⟩])).value = .ok [⟨.add, p⟩] :=
    value_parse_listText (List.cons_ne_nil _ _) (fun r hr => List.mem_singleton.1 hr ▸ hlegible)
      (Nat.le_add_left 1 255) (htext.symm ▸ byteLength_directive_le hnamed h)
  rwa [htext] at hread

/-- **What a directive is read as.**  For a predicate of any shape whose names are standard names of
the catalog: a directive of at most sixteen words gives back the rule that adds just that predicate,
and one of more words is refused. -/
theorem value_parse_directive (p : Predicate) (d : Text) (hnamed : Named Catalog.builtin p)
    (h : p.directive? = some d) :
    (parse Catalog.builtin d).value =
      if (pieces termSeparator d).length ≤ Limits.termsPerToken then .ok [⟨.add, p⟩]
      else .error (.badToken d 0 .tooManyTerms) := by
  split
  · rename_i hfew
    exact value_parse_of_few hnamed h hfew
  · rename_i hmany
    -- the directive is short enough, so only the number of its words can be refused
    have hbytes : byteLength d ≤ Limits.ruleStringBytes := byteLength_directive_le hnamed h
    obtain ⟨ws, hws, -, hd⟩ := exists_written_of_directive? h
    have hbody : Body d := hd ▸ body_join hws.ne_nil fun w hw =>
      hws.word (hnamed.writable writable_builtin) hw
    have hbegin : Clause.parse (Operation.add.sign ++ d) = Clause.parseBody .add d :=
      Clause.parse_sign_append (by decide) hbody.ne_nil hbody.no_leading_mark
    have hclause : Clause.parse d = .error .tooManyTerms := by
      refine hbegin.trans ?_
      exact parseBody_of_tooMany hbody.ne_nil hbody.no_leading_mark (Nat.lt_of_not_le hmany)
    have hone : ¬ Limits.rules < [Token.mk d 0].length := Nat.not_lt.2 (Nat.le_add_left 1 255)
    rw [parse_eq, if_neg (Nat.not_lt.2 hbytes), tokens_of_body hbody, if_neg hone, rulesOf, hclause]

/-- Two keywords, joined. -/
theorem value_parse_directive_conjunction :
    (parse Catalog.builtin (.of "kRSA+HIGH")).value =
      .ok [⟨.add, .and (.keyExchange [.rsa]) (.strength [.high])⟩] := by
  have hnamed : Named Catalog.builtin (.and (.keyExchange [.rsa]) (.strength [.high])) :=
    fun n hn => absurd hn List.not_mem_nil
  have hdirective : (Predicate.and (.keyExchange [.rsa]) (.strength [.high])).directive? =
      some (.of "kRSA+HIGH") := directive?_eq_some_iff.2 ⟨by decide, by decide +kernel⟩
  exact value_parse_directive _ _ hnamed hdirective

/-- The conjunction of a predicate with itself, a number of times, leaning to the left. -/
def conjunction (p : Predicate) : Nat → Predicate
  | 0 => p
  | n + 1 => .and (conjunction p n) p

/-- A conjunction of seventeen operands has a directive that cannot be read: not every directive is
read as its predicate. -/
theorem not_parse_every_directive :
    ¬ ∀ (p : Predicate) (d : Text), Named Catalog.builtin p → p.directive? = some d →
      (parse Catalog.builtin d).value = .ok [⟨.add, p⟩] := by
  intro hall
  have hwrite : (conjunction (.strength [.high]) 16).writeDirective? =
      some (join ['+'] (List.replicate 17 (.of "HIGH"))) := by decide +kernel
  have hread := hall (conjunction (.strength [.high]) 16) _ (fun n hn => absurd hn List.not_mem_nil)
    (directive?_eq_some_iff.2 ⟨by decide, hwrite⟩)
  have herror : (parse Catalog.builtin (join ['+'] (List.replicate 17 (.of "HIGH")))).value =
      .error (.badToken (join ['+'] (List.replicate 17 (.of "HIGH"))) 0 .tooManyTerms) := rfl
  rw [herror] at hread
  cases hread

end CipherRules.RuleString
