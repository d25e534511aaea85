import CipherRules.Proofs.Catalog.Part
import CipherRules.Proofs.RuleString.Grammar
import CipherRules.Proofs.WorkingSet.Idle

/-!
# Rule strings — Reading against a part of the catalog

A rule string is read against a catalog and against a part of it.  A term that is found in the part
stands for the same class in both (`Term.resolve?_of_part`), and a term that is lost in the part
stood for one suite that the part does not have (`Term.not_accepts_of_lost`).

So a clause gives the same rule in both readings, or none in the part and an idle one in the catalog
(`Clause.resolve?_part_or_idle`).  Only a clause that keeps may not lose a term: without the clause
everything would be kept.  That it does not is what `KeepsFound` says of a rule string.
-/

namespace CipherRules.RuleString

open Text (pieces)

variable {catalog : Catalog} {keep : Suite → Bool}

/-- A suite that a piece with the sign `&` names in the catalog is found in the part too. -/
def KeepsFound (catalog part : Catalog) (input : Text) : Prop :=
  ∀ piece ∈ pieces separator input, (Text.trim piece).head? = some '&' →
    ∀ word ∈ pieces '+' (Text.trim piece).tail, SuiteShaped word →
      part.lookup? word = none → catalog.lookup? word = none

instance (catalog part : Catalog) (input : Text) : Decidable (KeepsFound catalog part input) :=
  inferInstanceAs (Decidable (∀ _ ∈ pieces separator input, _))

/-! ### Terms -/

/-- A term that is found in the part stands for what it stands for in the catalog. -/
theorem Term.resolve?_of_part {t : Term} {p : Predicate}
    (h : t.resolve? (catalog.part keep) = some p) : t.resolve? catalog = some p := by
  cases t with
  | keyword q => exact h
  | suite n =>
    obtain ⟨s, hs, rfl⟩ := Option.map_eq_some_iff.1 h
    rw [Catalog.lookup?_part, Option.filter_eq_some_iff] at hs
    exact Option.map_eq_some_iff.2 ⟨s, hs.1, rfl⟩

/-- A term that is lost in the part stands for no suite of it. -/
theorem Term.not_accepts_of_lost {t : Term} {p : Predicate}
    (hlost : t.resolve? (catalog.part keep) = none) (h : t.resolve? catalog = some p) {s : Suite}
    (hs : s ∈ (catalog.part keep).suites) : p.accepts s = false := by
  cases t with
  | keyword q => cases hlost
  | suite n =>
    obtain ⟨named, hnamed, rfl⟩ := Option.map_eq_some_iff.1 h
    rw [Term.resolve?, Catalog.lookup?_part, hnamed, Option.map_eq_none_iff,
      Option.filter_eq_none_iff] at hlost
    obtain ⟨hcatalog, hkept⟩ := Catalog.mem_part.1 hs
    -- the name is that of the suite that is not kept, so it is none of another suite
    have hne : s.name ≠ named.name := fun heq => by
      have hfound := Catalog.lookup?_name hcatalog
      have hother := Catalog.lookup?_name (Catalog.lookup?_eq_some_iff.1 hnamed).1
      rw [heq, hother] at hfound
      cases hfound
      exact hlost s rfl hkept
    simp [Predicate.name, Predicate.accepts, Condition.accepts, hne]

/-! ### Clauses -/

/-- A conjunction accepts what all its operands accept. -/
theorem accepts_foldl_and {p : Predicate} {ps : List Predicate} {s : Suite} :
    (ps.foldl .and p).accepts s = (p :: ps).all (·.accepts s) := by
  induction ps generalizing p with
  | nil => simp
  | cons q rest ih => simp [ih, Predicate.accepts, Bool.and_assoc]

/-- A clause that loses no term gives the rule that it gives in the catalog. -/
theorem Clause.resolve?_of_part {clause : Clause} {r : Rule}
    (h : clause.resolve? (catalog.part keep) = some r) : clause.resolve? catalog = some r := by
  cases clause with
  | sortByStrength => exact h
  | apply op first others =>
    obtain ⟨p, ps, hterms, rfl⟩ := Clause.resolve?_eq_some_iff.1 h
    exact Clause.resolve?_eq_some_iff.2 ⟨p, ps, hterms.imp fun _ _ => Term.resolve?_of_part, rfl⟩

/-- A clause that loses a term gave a class without a suite of the part. -/
theorem Clause.not_accepts_of_lost {op : Operation} {first : Term} {others : List Term} {r : Rule}
    (hlost : (Clause.apply op first others).resolve? (catalog.part keep) = none)
    (h : (Clause.apply op first others).resolve? catalog = some r) {s : Suite}
    (hs : s ∈ (catalog.part keep).suites) : r.predicate.accepts s = false := by
  obtain ⟨t, ht, htlost⟩ := Clause.resolve?_eq_none_iff.1 hlost
  obtain ⟨p, ps, hterms, rfl⟩ := Clause.resolve?_eq_some_iff.1 h
  obtain ⟨i, hi, rfl⟩ := List.getElem_of_mem ht
  have hi' : i < (p :: ps).length := hterms.length_eq ▸ hi
  have hq : (p :: ps)[i].accepts s = false := Term.not_accepts_of_lost htlost (hterms.get hi hi') hs
  rw [accepts_foldl_and]
  exact List.all_eq_false.2 ⟨_, List.getElem_mem hi', by simp [hq]⟩

/-- **A clause that a part reads otherwise is idle there.** -/
theorem Clause.resolve?_part_or_idle {clause : Clause} (hsound : clause.Sound)
    (hkept : ∀ first others, clause = .apply .keepOnly first others → ∀ t ∈ first :: others,
      t.resolve? (catalog.part keep) = none → t.resolve? catalog = none) :
    clause.resolve? catalog = clause.resolve? (catalog.part keep) ∨
      clause.resolve? (catalog.part keep) = none ∧
        ∀ r ∈ clause.resolve? catalog, r.Idle (catalog.part keep) := by
  cases hpart : clause.resolve? (catalog.part keep) with
  | some r => exact Or.inl (Clause.resolve?_of_part hpart)
  | none =>
    refine Or.inr ⟨rfl, fun r hr => ?_⟩
    cases clause with
    | sortByStrength => cases hpart
    | apply op first others =>
      have hclass := fun s => Clause.not_accepts_of_lost (s := s) hpart hr
      obtain ⟨p, ps, -, rfl⟩ := Clause.resolve?_eq_some_iff.1 hr
      refine ⟨?_, hsound.1, hclass⟩
      -- a clause that keeps has lost no term, so it would give no rule in the catalog either
      rintro rfl
      obtain ⟨t, ht, hlost⟩ := Clause.resolve?_eq_none_iff.1 hpart
      have hnone : (Clause.apply .keepOnly first others).resolve? catalog = none :=
        Clause.resolve?_eq_none_iff.2 ⟨t, ht, hkept first others rfl t ht hlost⟩
      rw [Option.mem_def, hnone] at hr
      cases hr

/-! ### Rule strings -/

/-- The clauses of a rule string that finds what it keeps are read alike, or idle in the part. -/
theorem KeepsFound.resolve?_part_or_idle {input : Text} {clauses : List Clause}
    (h : KeepsFound catalog (catalog.part keep) input)
    (hreads : Reads ((pieces separator input).map Text.trim) clauses) :
    ∀ clause ∈ clauses, clause.resolve? catalog = clause.resolve? (catalog.part keep) ∨
      clause.resolve? (catalog.part keep) = none ∧
        ∀ r ∈ clause.resolve? catalog, r.Idle (catalog.part keep) := by
  intro clause hclause
  obtain ⟨token, htoken, hparse⟩ := exists_of_map_eq_ok hreads hclause
  obtain ⟨piece, hpiece, rfl⟩ := List.mem_map.1 htoken
  refine Clause.resolve?_part_or_idle (Clause.sound_of_parse hparse) ?_
  rintro first others rfl t ht hlost
  rcases Clause.parse_eq_ok_iff.1 hparse with ⟨-, heq⟩ | ⟨op, body, -, htrim, hbody⟩
  · cases heq
  · obtain ⟨words, first', others', hphrase, hterms, heq⟩ := parseBody_eq_ok_iff_phrase.1 hbody
    cases heq
    obtain ⟨word, hword, hread⟩ := exists_of_map_eq_ok (readsTerms_iff.1 hterms) ht
    obtain ⟨hshape, hnone⟩ := (resolve?_eq_none_iff hread).1 hlost
    obtain rfl := Text.splits_iff.1 hphrase.splits
    have hfound : catalog.lookup? word = none :=
      h piece hpiece (by rw [htrim]; rfl) word (by rw [htrim]; exact hword) hshape hnone
    exact (resolve?_eq_none_iff hread).2 ⟨hshape, hfound⟩

/-- **A rule string that finds what it keeps has the same effect in both readings**, seen in the
part. -/
theorem after_parse_part {input : Text} {rules : List Rule}
    (h : (parse catalog input).value = .ok rules)
    (hkept : KeepsFound catalog (catalog.part keep) input) :
    ∃ others, (parse (catalog.part keep) input).value = .ok others ∧
      WorkingSet.after (catalog.part keep) rules = .after (catalog.part keep) others := by
  obtain ⟨hbytes, hcount, clauses, hreads, rfl⟩ := value_parse_eq_ok_iff.1 h
  refine ⟨_, value_parse_eq_ok_iff.2 ⟨hbytes, hcount, clauses, hreads, rfl⟩, ?_⟩
  exact (WorkingSet.coherent_start _).applyAll_filterMap_congr
    (hkept.resolve?_part_or_idle hreads)

end CipherRules.RuleString
