import CipherRules.Rule

/-!
# Predicates — Constant folding is sound

What the shape of a predicate shows is true of every suite: a predicate that folds to true accepts
each (`accepts_of_foldsToTrue`), and one that folds to false accepts none
(`not_accepts_of_foldsToFalse`).  The two are proved together, since a negation folds by the other
side of its operand.  A predicate that visibly accepts every suite (`isAlwaysTrue`), or none
(`isAlwaysFalse`), folds and is within the depth limit.

A rule that is visibly without effect is applied to no suite (`Rule.not_accepts_of_isVacuous`).
-/

namespace CipherRules

namespace ValueSet

variable {α : Type} [Value α]

theorem mem_of_coversFamily [DecidableEq α] [Family α] {s : ValueSet α}
    (h : s.coversFamily = true) (a : α) : a ∈ s := by
  have hall := List.all_eq_true.1 h a (Family.mem_all a)
  exact of_decide_eq_true hall

theorem not_mem_of_isEmpty {s : ValueSet α} (h : s.isEmpty = true) (a : α) : ¬ a ∈ s := by
  have hnil : s.values = [] := List.isEmpty_iff.1 h
  intro ha
  have ha' : a ∈ s.values := ha
  rw [hnil] at ha'
  exact List.not_mem_nil ha'

end ValueSet

namespace Condition

/-- A condition that accepts its whole family holds of every suite. -/
theorem accepts_of_coversFamily {c : Condition} (h : c.coversFamily = true) (s : Suite) :
    c.accepts s = true := by
  cases c with
  | name values => simp [coversFamily] at h
  | _ values => exact decide_eq_true (ValueSet.mem_of_coversFamily h _)

/-- A condition without accepted values holds of no suite. -/
theorem not_accepts_of_isEmpty {c : Condition} (h : c.isEmpty = true) (s : Suite) :
    c.accepts s = false := by
  cases c with
  | _ values => exact decide_eq_false (ValueSet.not_mem_of_isEmpty h _)

end Condition

namespace Predicate

mutual

/-- A predicate that folds to true accepts every suite. -/
theorem accepts_of_foldsToTrue : ∀ {p : Predicate} (s : Suite),
    p.foldsToTrue = true → p.accepts s = true
  | .always,      _, _ => rfl
  | .never,       _, h => by simp [foldsToTrue] at h
  | .condition _, s, h => Condition.accepts_of_coversFamily h s
  | .and p q,     s, h => by
      simp only [foldsToTrue, Bool.and_eq_true] at h
      simp [accepts, accepts_of_foldsToTrue s h.1, accepts_of_foldsToTrue s h.2]
  | .or p q,      s, h => by
      simp only [foldsToTrue, Bool.or_eq_true] at h
      rcases h with h | h <;> simp [accepts, accepts_of_foldsToTrue s h]
  | .not p,       s, h => by
      simp only [foldsToTrue] at h
      simp [accepts, not_accepts_of_foldsToFalse s h]

/-- A predicate that folds to false accepts no suite. -/
theorem not_accepts_of_foldsToFalse : ∀ {p : Predicate} (s : Suite),
    p.foldsToFalse = true → p.accepts s = false
  | .always,      _, h => by simp [foldsToFalse] at h
  | .never,       _, _ => rfl
  | .condition _, s, h => Condition.not_accepts_of_isEmpty h s
  | .and p q,     s, h => by
      simp only [foldsToFalse, Bool.or_eq_true] at h
      rcases h with h | h <;> simp [accepts, not_accepts_of_foldsToFalse s h]
  | .or p q,      s, h => by
      simp only [foldsToFalse, Bool.and_eq_true] at h
      simp [accepts, not_accepts_of_foldsToFalse s h.1, not_accepts_of_foldsToFalse s h.2]
  | .not p,       s, h => by
      simp only [foldsToFalse] at h
      simp [accepts, accepts_of_foldsToTrue s h]

end

theorem isAlwaysTrue_iff {p : Predicate} :
    p.isAlwaysTrue = true ↔ p.height ≤ Limits.predicateDepth ∧ p.foldsToTrue = true := by
  rw [isAlwaysTrue, Bool.and_eq_true, withinDepth_iff]

theorem isAlwaysFalse_iff {p : Predicate} :
    p.isAlwaysFalse = true ↔ p.height ≤ Limits.predicateDepth ∧ p.foldsToFalse = true := by
  rw [isAlwaysFalse, Bool.and_eq_true, withinDepth_iff]

theorem accepts_of_isAlwaysTrue {p : Predicate} (h : p.isAlwaysTrue = true) (s : Suite) :
    p.accepts s = true :=
  accepts_of_foldsToTrue s (isAlwaysTrue_iff.1 h).2

theorem not_accepts_of_isAlwaysFalse {p : Predicate} (h : p.isAlwaysFalse = true) (s : Suite) :
    p.accepts s = false :=
  not_accepts_of_foldsToFalse s (isAlwaysFalse_iff.1 h).2

/-- No predicate visibly accepts every suite and none. -/
theorem not_isAlwaysTrue_and_isAlwaysFalse (p : Predicate) :
    ¬ (p.isAlwaysTrue = true ∧ p.isAlwaysFalse = true) := by
  rintro ⟨htrue, hfalse⟩
  -- any suite tells the two apart
  let s : Suite := ⟨[], [], 0, .sslV3, .rsa, .rsa, .null, .md5, false, .none, false, 0⟩
  have haccepts : p.accepts s = true := accepts_of_isAlwaysTrue htrue s
  rw [not_accepts_of_isAlwaysFalse hfalse s] at haccepts
  exact Bool.false_ne_true haccepts

end Predicate

/-- A rule that is visibly without effect neither sorts nor keeps, and its class is empty. -/
theorem Rule.isVacuous_iff {r : Rule} :
    r.isVacuous = true ↔ r.operation ≠ .sortByStrength ∧ r.operation ≠ .keepOnly ∧
      r.predicate.isAlwaysFalse = true := by
  unfold isVacuous
  cases r.operation <;> simp

theorem Rule.not_accepts_of_isVacuous {r : Rule} (h : r.isVacuous = true) (s : Suite) :
    r.predicate.accepts s = false :=
  Predicate.not_accepts_of_isAlwaysFalse (Rule.isVacuous_iff.1 h).2.2 s

end CipherRules
