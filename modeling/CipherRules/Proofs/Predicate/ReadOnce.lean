import CipherRules.Proofs.Predicate.Attribute
import CipherRules.Proofs.Predicate.Folding
import Mathlib.Data.Fintype.EquivFin
import Mathlib.Data.List.Nodup

/-!
# Predicates — Constant folding is complete on read-once predicates

A predicate is read-once (`ReadOnce`) when no two of its leaves are about the same attribute.  Then
folding misses nothing: if the shape does not show that every suite gets an answer, some suite gets
the other one (`exists_accepts_not`).

The induction is on the predicate, for both answers at once, since a negation exchanges them.  Where
a conjunction or a disjunction needs an answer of both operands, each operand gives it for a suite
of its own, and the two suites are put together attribute by attribute (`exists_accepts_both`): here
the operands must not share an attribute.  Without that, folding does miss something: each suite is
export grade or is not, but the disjunction of the two does not fold.
-/

namespace CipherRules

namespace ValueSet

/-- A set that neither has its whole family nor is empty contains one value and misses another. -/
theorem exists_mem_eq_not {α : Type} [DecidableEq α] [Family α] {s : ValueSet α} {b : Bool}
    (h : (bif b then s.coversFamily else s.isEmpty) = false) : ∃ a, decide (a ∈ s) = !b := by
  cases b with
  | true =>
    obtain ⟨a, -, ha⟩ := List.all_eq_false.1 h
    exact ⟨a, Bool.eq_false_iff.2 ha⟩
  | false =>
    obtain ⟨a, ha⟩ := List.isEmpty_eq_false_iff_exists_mem.1 h
    exact ⟨a, decide_eq_true ha⟩

/-- There is no end of names, so a set of names misses one whatever it contains. -/
theorem exists_name_mem_eq_not {s : ValueSet Text} {b : Bool}
    (h : (bif b then false else s.isEmpty) = false) : ∃ n, decide (n ∈ s) = !b := by
  cases b with
  | true =>
    obtain ⟨n, hn⟩ := Infinite.exists_notMem_finset s.values.toFinset
    exact ⟨n, decide_eq_false fun hmem => hn (List.mem_toFinset.2 hmem)⟩
  | false =>
    obtain ⟨n, hn⟩ := List.isEmpty_eq_false_iff_exists_mem.1 h
    exact ⟨n, decide_eq_true hn⟩

end ValueSet

/-- A suite to take the other attributes from. -/
def Suite.sample : Suite := ⟨[], [], 0, .sslV3, .rsa, .rsa, .null, .md5, false, .none, false, 0⟩

namespace Condition

/-- Whether the accepted values show that every suite gets the answer. -/
def folds (c : Condition) (b : Bool) : Bool := bif b then c.coversFamily else c.isEmpty

/-- A condition that does not fold to an answer gives some suite the other one. -/
theorem exists_accepts_not : ∀ {c : Condition} {b : Bool}, c.folds b = false →
    ∃ s, c.accepts s = !b
  | .protocol _, _, h =>
      let ⟨a, ha⟩ := ValueSet.exists_mem_eq_not h
      ⟨{ Suite.sample with protocol := a }, ha⟩
  | .keyExchange _, _, h =>
      let ⟨a, ha⟩ := ValueSet.exists_mem_eq_not h
      ⟨{ Suite.sample with keyExchange := a }, ha⟩
  | .authentication _, _, h =>
      let ⟨a, ha⟩ := ValueSet.exists_mem_eq_not h
      ⟨{ Suite.sample with authentication := a }, ha⟩
  | .encryption _, _, h =>
      let ⟨a, ha⟩ := ValueSet.exists_mem_eq_not h
      ⟨{ Suite.sample with encryption := a }, ha⟩
  | .digest _, _, h =>
      let ⟨a, ha⟩ := ValueSet.exists_mem_eq_not h
      ⟨{ Suite.sample with digest := a }, ha⟩
  | .strength _, _, h =>
      let ⟨a, ha⟩ := ValueSet.exists_mem_eq_not h
      ⟨{ Suite.sample with strength := a }, ha⟩
  | .exportGrade _, _, h =>
      let ⟨a, ha⟩ := ValueSet.exists_mem_eq_not h
      ⟨{ Suite.sample with exportGrade := a }, ha⟩
  | .fips _, _, h =>
      let ⟨a, ha⟩ := ValueSet.exists_mem_eq_not h
      ⟨{ Suite.sample with fips := a }, ha⟩
  | .name _, _, h =>
      let ⟨n, hn⟩ := ValueSet.exists_name_mem_eq_not h
      ⟨{ Suite.sample with name := n }, hn⟩

end Condition

namespace Predicate

/-- Whether the shape shows that every suite gets the answer. -/
def folds (p : Predicate) (b : Bool) : Bool := bif b then p.foldsToTrue else p.foldsToFalse

theorem accepts_of_folds {p : Predicate} {b : Bool} (h : p.folds b = true) (s : Suite) :
    p.accepts s = b := by
  cases b with
  | true => exact accepts_of_foldsToTrue s h
  | false => exact not_accepts_of_foldsToFalse s h

/-- No two leaves are about the same attribute. -/
def ReadOnce (p : Predicate) : Prop := p.attributes.Nodup

instance (p : Predicate) : Decidable p.ReadOnce := inferInstanceAs (Decidable p.attributes.Nodup)

/-- **A read-once predicate that does not fold to an answer gives some suite the other one.** -/
theorem exists_accepts_not {p : Predicate} (hp : p.ReadOnce) {b : Bool} (h : p.folds b = false) :
    ∃ s, p.accepts s = !b := by
  induction p generalizing b with
  | always =>
    cases b with
    | true => simp [folds, foldsToTrue] at h
    | false => exact ⟨.sample, rfl⟩
  | never =>
    cases b with
    | true => exact ⟨.sample, rfl⟩
    | false => simp [folds, foldsToFalse] at h
  | condition c => exact Condition.exists_accepts_not h
  | and p q ihp ihq =>
    obtain ⟨hleft, hright, hdisjoint⟩ := List.nodup_append'.1 hp
    cases b with
    | true =>
      -- one operand that fails is enough
      rcases Bool.and_eq_false_iff.1 h with h | h
      · obtain ⟨s, hs⟩ := ihp hleft (b := true) h
        exact ⟨s, by simp [accepts, hs]⟩
      · obtain ⟨s, hs⟩ := ihq hright (b := true) h
        exact ⟨s, by simp [accepts, hs]⟩
    | false =>
      obtain ⟨h₁, h₂⟩ := Bool.or_eq_false_iff.1 h
      obtain ⟨s, hs, ht⟩ := exists_accepts_both hdisjoint (ihp hleft (b := false) h₁)
        (ihq hright (b := false) h₂)
      exact ⟨s, by simp [accepts, hs, ht]⟩
  | or p q ihp ihq =>
    obtain ⟨hleft, hright, hdisjoint⟩ := List.nodup_append'.1 hp
    cases b with
    | true =>
      obtain ⟨h₁, h₂⟩ := Bool.or_eq_false_iff.1 h
      obtain ⟨s, hs, ht⟩ := exists_accepts_both hdisjoint (ihp hleft (b := true) h₁)
        (ihq hright (b := true) h₂)
      exact ⟨s, by simp [accepts, hs, ht]⟩
    | false =>
      -- one operand that holds is enough
      rcases Bool.and_eq_false_iff.1 h with h | h
      · obtain ⟨s, hs⟩ := ihp hleft (b := false) h
        exact ⟨s, by simp [accepts, hs]⟩
      · obtain ⟨s, hs⟩ := ihq hright (b := false) h
        exact ⟨s, by simp [accepts, hs]⟩
  | not p ih =>
    have hother : p.folds (!b) = false := by cases b <;> exact h
    obtain ⟨s, hs⟩ := ih hp hother
    exact ⟨s, by simp [accepts, hs]⟩

/-- Folding of a read-once predicate says exactly what answer every suite gets. -/
theorem folds_iff {p : Predicate} (hp : p.ReadOnce) {b : Bool} :
    p.folds b = true ↔ ∀ s, p.accepts s = b := by
  refine ⟨accepts_of_folds, fun hall => ?_⟩
  by_contra hfolds
  obtain ⟨s, hs⟩ := exists_accepts_not hp (Bool.eq_false_iff.2 hfolds)
  rw [hall s] at hs
  exact Bool.not_ne_self b hs.symm

/-- **Constant folding is complete on read-once predicates.**  If every suite there could be is
accepted by a predicate within the depth limit in which each attribute occurs in at most one leaf,
then the predicate visibly accepts every suite; and if none is accepted, then it visibly accepts
none. -/
theorem folding_complete {p : Predicate} (hdepth : p.height ≤ Limits.predicateDepth)
    (hread : p.ReadOnce) :
    (p.isAlwaysTrue = true ↔ ∀ s, p.accepts s = true) ∧
    (p.isAlwaysFalse = true ↔ ∀ s, p.accepts s = false) := by
  rw [isAlwaysTrue_iff, isAlwaysFalse_iff]
  constructor
  · rw [← folds_iff hread]
    exact ⟨fun h => h.2, fun h => ⟨hdepth, h⟩⟩
  · rw [← folds_iff hread]
    exact ⟨fun h => h.2, fun h => ⟨hdepth, h⟩⟩

/-- No suite has a name out of no names, so the first predicate visibly accepts every suite.  The
second one does not visibly accept none, so some suite of high strength has another name. -/
theorem folding_complete_names :
    (Predicate.or (.fips true)
      (.not (.and (.condition (.name .empty)) (.strength [.high])))).isAlwaysTrue = true ∧
    ¬ ∀ s, (Predicate.and (.strength [.high])
      (.not (.name [.of "TLS_RSA_WITH_AES_256_GCM_SHA384"]))).accepts s = false := by
  constructor
  · refine (folding_complete (by decide) (by decide)).1.2 fun s => ?_
    simp [accepts, Condition.accepts]
  · intro hnone
    have hfalse := (folding_complete (by decide) (by decide)).2.2 hnone
    exact absurd (isAlwaysFalse_iff.1 hfalse).2 (by decide)

end Predicate

end CipherRules
