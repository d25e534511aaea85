import CipherRules.Catalog.Builtin
import CipherRules.Proofs.RuleString.Reading
import CipherRules.Proofs.Selection.Outcome
import CipherRules.Proofs.WorkingSet.Deletion

/-!
# Selections — The place of a deletion

It makes no difference to a selection where a deletion stands: `build_delete_anywhere` moves a
deletion to the front, of a list of rules and of a rule string.

The rules of a rule string are within the limits (`withinLimits_of_parse`).  A piece that begins
with `!` gives a deletion or no rule at all (`resolve?_of_delete_mark`), so moving the piece moves
the deletion, and whether the string is read does not depend on the order of its pieces.
-/

namespace CipherRules.Selection

open RuleString (separator parse Clause Reads reads_append_iff reads_cons_iff value_parse_eq_ok_iff)
open Text (pieces join)

variable {catalog : Catalog} {input : Text} {rules : List Rule}

/-- The rules of a rule string are within the limits. -/
theorem withinLimits_of_parse (h : (parse catalog input).value = .ok rules) :
    WithinLimits rules := by
  obtain ⟨hcount, hclauses⟩ := RuleString.exists_resolve?_of_parse h
  refine ⟨hcount, fun r hr => ?_⟩
  obtain ⟨clause, hsound, hrule⟩ := hclauses r hr
  exact Clause.height_of_resolve? hsound hrule

theorem value_ofRuleString_of_ok (h : (parse catalog input).value = .ok rules) :
    (ofRuleString catalog input).value = (build catalog rules).value := by
  rw [ofRuleString, Traced.andThen, h]

/-- A clause that begins with `!` deletes, unless it names a suite the catalog does not have. -/
theorem resolve?_of_delete_mark {text : Text} {clause : Clause}
    (hmark : text.head? = some '!') (h : Clause.parse text = .ok clause) :
    clause.resolve? catalog = none ∨ ∃ p, clause.resolve? catalog = some ⟨.delete, p⟩ := by
  obtain ⟨body, rfl⟩ : ∃ body, text = '!' :: body := List.head?_eq_some_iff.1 hmark
  obtain ⟨-, -, -, first, others, -, rfl⟩ := RuleString.parseBody_eq_ok_iff.1 h
  rw [Clause.resolve?]
  cases first.resolve? catalog with
  | none => exact Or.inl rfl
  | some p =>
    cases hq : RuleString.Term.conjoin? catalog p others with
    | none => exact Or.inl (by simp [hq])
    | some q => exact Or.inr ⟨q, by simp [hq]⟩

/-- Rules within the limits have the choice that they have with a deletion moved to the front. -/
theorem sameChoice_delete_front {before later : List Rule} {p : Predicate}
    (h : WithinLimits (before ++ ⟨.delete, p⟩ :: later)) :
    SameChoice (build catalog (before ++ ⟨.delete, p⟩ :: later)).value
      (build catalog (⟨.delete, p⟩ :: before ++ later)).value := by
  have hfront : WithinLimits (⟨.delete, p⟩ :: before ++ later) := h.perm List.perm_middle.symm
  refine sameChoice_of_order_eq h hfront ?_
  rw [WorkingSet.after_delete_middle]

/-- The pieces of the text with one piece moved to the front. -/
theorem pieces_join_front {token : Text} {before later : List Text}
    (h : pieces separator input = before ++ token :: later) :
    pieces separator (join [separator] (token :: before ++ later)) = token :: before ++ later := by
  refine Text.pieces_join (List.cons_ne_nil token _) fun t ht => ?_
  have hmem : t ∈ pieces separator input := h ▸ List.perm_middle.mem_iff.2 ht
  exact Text.not_mem_of_mem_pieces hmem

/-- A rule string and one with a piece that deletes moved to the front make the same choice, where
both are read. -/
theorem sameChoice_of_parse_front {moved token : Text} {before later : List Text}
    {others : List Rule} (hpieces : pieces separator input = before ++ token :: later)
    (hmoved : pieces separator moved = token :: before ++ later)
    (hmark : (Text.trim token).head? = some '!') (h : (parse catalog input).value = .ok rules)
    (h' : (parse catalog moved).value = .ok others) :
    SameChoice (build catalog rules).value (build catalog others).value := by
  have hlimits : WithinLimits rules := withinLimits_of_parse h
  obtain ⟨-, -, clauses, hreads, hrules⟩ := value_parse_eq_ok_iff.1 h
  obtain ⟨-, -, clauses', hreads', hothers⟩ := value_parse_eq_ok_iff.1 h'
  rw [hpieces, List.map_append, List.map_cons, reads_append_iff] at hreads
  obtain ⟨first, rest, rfl, hfirst, hrest⟩ := hreads
  obtain ⟨clause, last, rfl, hclause, hlast⟩ := reads_cons_iff.1 hrest
  -- the moved string is read as the same clauses in the new order
  have hfront : Reads ((pieces separator moved).map Text.trim) (clause :: first ++ last) := by
    rw [hmoved, List.map_append, List.map_cons, reads_append_iff]
    have hmovedFirst : Reads (Text.trim token :: before.map Text.trim) (clause :: first) :=
      reads_cons_iff.2 ⟨clause, first, rfl, hclause, hfirst⟩
    exact ⟨clause :: first, last, rfl, hmovedFirst, hlast⟩
  obtain rfl := hreads'.unique hfront
  rw [List.filterMap_append, List.filterMap_cons] at hrules
  rw [List.filterMap_append, List.filterMap_cons] at hothers
  rcases resolve?_of_delete_mark hmark hclause with hnone | ⟨p, hp⟩
  · rw [hnone] at hrules hothers
    have heq : rules = others := hrules.trans hothers.symm
    exact heq ▸ sameChoice_of_order_eq hlimits hlimits rfl
  · rw [hp] at hrules hothers
    rw [hrules, hothers]
    exact sameChoice_delete_front (hrules ▸ hlimits)

/-- **Where a deletion stands makes no difference.**  Moved to the front of rules within the limits
it leaves the same suites selected in the same order, or none as before.  So a rule string from
which a piece that deletes is moved to the front is refused as before, or makes the same choice. -/
theorem build_delete_anywhere (catalog : Catalog) :
    (∀ (before later : List Rule) (p : Predicate),
      WithinLimits (before ++ ⟨.delete, p⟩ :: later) →
      SameChoice (build catalog (before ++ ⟨.delete, p⟩ :: later)).value
        (build catalog (⟨.delete, p⟩ :: before ++ later)).value) ∧
    (∀ (input token : Text) (before later : List Text),
      pieces separator input = before ++ token :: later → (Text.trim token).head? = some '!' →
      (∃ e e', (parse catalog input).value = .error e ∧
        (parse catalog (join [separator] (token :: before ++ later))).value = .error e') ∨
      SameChoice (ofRuleString catalog input).value
        (ofRuleString catalog (join [separator] (token :: before ++ later))).value) := by
  refine ⟨fun before later p => sameChoice_delete_front,
    fun input token before later hpieces hmark => ?_⟩
  have hmoved := pieces_join_front hpieces
  have hperm : (pieces separator input).Perm
      (pieces separator (join [separator] (token :: before ++ later))) := by
    rw [hmoved, hpieces]
    exact List.perm_middle
  -- the strings have the same pieces, so both are refused or both are read
  cases h : (parse catalog input).value with
  | error e =>
    cases h' : (parse catalog (join [separator] (token :: before ++ later))).value with
    | error e' => exact Or.inl ⟨e, e', rfl, rfl⟩
    | ok others =>
      obtain ⟨rules, hrules⟩ :=
        RuleString.exists_value_parse_eq_ok_of_perm hperm.symm ⟨others, h'⟩
      rw [h] at hrules
      cases hrules
  | ok rules =>
    obtain ⟨others, h'⟩ := RuleString.exists_value_parse_eq_ok_of_perm hperm ⟨rules, h⟩
    rw [value_ofRuleString_of_ok h, value_ofRuleString_of_ok h']
    exact Or.inr (sameChoice_of_parse_front hpieces hmoved hmark h h')

/-- Anonymous suites, deleted last or first. -/
theorem select_without_anonymous :
    SameChoice (build Catalog.builtin [⟨.add, .strength [.high]⟩,
        ⟨.delete, .authentication [.null]⟩]).value
      (build Catalog.builtin [⟨.delete, .authentication [.null]⟩,
        ⟨.add, .strength [.high]⟩]).value ∧
    SameChoice (ofRuleString Catalog.builtin (.of "HIGH: !aNULL :@STRENGTH")).value
      (ofRuleString Catalog.builtin (.of " !aNULL :HIGH:@STRENGTH")).value := by
  obtain ⟨hrules, htexts⟩ := build_delete_anywhere Catalog.builtin
  refine ⟨hrules [⟨.add, .strength [.high]⟩] [] (.authentication [.null])
    ⟨by decide, by decide⟩, ?_⟩
  have hread : (parse Catalog.builtin (.of "HIGH: !aNULL :@STRENGTH")).value = .ok
      [⟨.add, .strength [.high]⟩, ⟨.delete, .authentication [.null]⟩, .sortByStrength] := rfl
  rcases htexts (.of "HIGH: !aNULL :@STRENGTH") (.of " !aNULL ") [.of "HIGH"] [.of "@STRENGTH"]
    rfl rfl with ⟨e, e', h, -⟩ | h
  · rw [hread] at h
    cases h
  · exact h

end CipherRules.Selection
