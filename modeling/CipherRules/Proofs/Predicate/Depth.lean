import CipherRules.Catalog.Builtin
import CipherRules.Predicate.Directive
import CipherRules.Proofs.Selection.Outcome
import Mathlib.Logic.Function.Iterate

/-!
# Predicates — The search for the depth

`Predicate.depth` goes through a tree turn by turn.  `Search` is its state between two turns: the
subtrees that wait on a stack, each with its own depth, and the greatest depth found so far.

* `pending_visit`, `found_visit`: a turn takes one node away from those that wait, and does not
  change what will be found in the end.
* `Search.after_pending`: so the search ends, after as many turns as nodes wait, with what is to be
  found.
* `search_finds_height`: from a whole tree the search ends with the height of the tree.  The depth
  limit is therefore a limit on the height, and nothing goes on with a tree above it.
-/

namespace CipherRules

namespace Predicate

theorem size_pos (p : Predicate) : 0 < p.size := by
  cases p <;> simp [size]

/-- The subtrees that wait, the next one first and each with its own depth, and the greatest depth
so far. -/
structure Search where
  waiting : List (Predicate × Nat)
  best : Nat

namespace Search

variable {s t : Search}

/-- The whole tree waits. -/
def start (p : Predicate) : Search := ⟨[(p, 1)], 0⟩

/-- One turn: the next subtree makes place for its operands, one deeper.  There is no turn once
nothing waits. -/
def visit? : Search → Option Search
  | ⟨[], _⟩ => none
  | ⟨(p, d) :: waiting, best⟩ =>
      some ⟨p.operands.map (fun q => (q, d + 1)) ++ waiting, max best d⟩

/-- The state after a number of turns, if there are so many. -/
def after : Nat → Search → Option Search
  | 0, s => some s
  | n + 1, s => s.visit?.bind (after n)

/-- The number of nodes in the subtrees that wait. -/
def pending (s : Search) : Nat := s.waiting.foldr (fun w n => w.1.size + n) 0

/-- The greatest depth that will have been found in the end. -/
def found (s : Search) : Nat := deepest s.waiting s.best

/-- A turn takes one node away from those that wait. -/
theorem pending_visit (h : s.visit? = some t) : s.pending = t.pending + 1 := by
  obtain ⟨_ | ⟨⟨p, d⟩, waiting⟩, best⟩ := s
  · cases h
  · cases h
    cases p <;> simp [pending, operands, size] <;> omega

/-- A turn does not change what will be found. -/
theorem found_visit (h : s.visit? = some t) : t.found = s.found := by
  obtain ⟨_ | ⟨⟨p, d⟩, waiting⟩, best⟩ := s
  · cases h
  · cases h
    rw [found, found, deepest]

theorem eq_of_visit_eq_none (h : s.visit? = none) : s = ⟨[], s.found⟩ := by
  obtain ⟨_ | ⟨⟨p, d⟩, waiting⟩, best⟩ := s
  · rw [found, deepest]
  · cases h

/-- There is a turn exactly while nodes wait. -/
theorem visit_eq_none_iff : s.visit? = none ↔ s.pending = 0 := by
  obtain ⟨_ | ⟨⟨p, d⟩, waiting⟩, best⟩ := s
  · exact ⟨fun _ => rfl, fun _ => rfl⟩
  · have hp := p.size_pos
    constructor
    · intro h
      cases h
    · intro h
      simp only [pending, List.foldr_cons] at h
      omega

/-- **The search ends**, after as many turns as nodes wait, with what is to be found. -/
theorem after_pending (s : Search) : s.after s.pending = some ⟨[], s.found⟩ := by
  induction hn : s.pending generalizing s with
  | zero => rw [after, ← eq_of_visit_eq_none (visit_eq_none_iff.2 hn)]
  | succ n ih =>
    cases ht : s.visit? with
    | none =>
      rw [visit_eq_none_iff.1 ht] at hn
      cases hn
    | some t =>
      have hpending : t.pending = n := Nat.succ.inj ((pending_visit ht).symm.trans hn)
      rw [after, ht, Option.bind_some, ih t hpending, found_visit ht]

end Search

/-! ### The limit -/

theorem checkDepth_eq_ok_iff {p : Predicate} :
    p.checkDepth = .ok () ↔ p.height ≤ Limits.predicateDepth := by
  rw [← withinDepth_iff, checkDepth]
  split <;> simp [*]

theorem checkDepth_eq_error_iff {p : Predicate} {e : SelectionError} :
    p.checkDepth = .error e ↔ e = .predicateTooDeep ∧ Limits.predicateDepth < p.height := by
  rw [← Nat.not_le, ← withinDepth_iff, checkDepth]
  split <;> simp [*, eq_comm]

theorem withinDepth_eq_false {p : Predicate} (h : Limits.predicateDepth < p.height) :
    p.withinDepth = false :=
  Bool.eq_false_iff.2 fun hwithin => Nat.not_le.2 h (withinDepth_iff.1 hwithin)

end Predicate

namespace Selection

/-- **A build refuses a tree above the limit** and reports nothing, whatever the other rules are. -/
theorem build_of_tooDeep {rules : List Rule} (catalog : Catalog)
    (hl : rules.length ≤ Limits.rules)
    (h : ∃ r ∈ rules, Limits.predicateDepth < r.predicate.height) :
    build catalog rules = ⟨[], .error .predicateTooDeep⟩ := by
  rw [build, checkLimits_of_tooDeep hl h]

end Selection

namespace Predicate

/-- **The search for the depth ends on every tree, and finds its height.**  It takes as many turns
as the tree has nodes.  The check of the depth therefore fails exactly on the trees that are higher
than the limit, and goes predicate by predicate through the rules of a build.  Of a tree above the
limit there is no directive, it is not seen to accept every suite or none, and a build with it among
its rules is refused. -/
theorem search_finds_height (p : Predicate) :
    (Search.start p).after p.size = some ⟨[], p.height⟩ ∧
    p.depth = p.height ∧
    (p.checkDepth = .ok () ↔ p.height ≤ Limits.predicateDepth) ∧
    (p.checkDepth = .error .predicateTooDeep ↔ Limits.predicateDepth < p.height) ∧
    (Limits.predicateDepth < p.height →
      p.directive? = none ∧ p.isAlwaysTrue = false ∧ p.isAlwaysFalse = false ∧
      ∀ (catalog : Catalog) (rules : List Rule), rules.length ≤ Limits.rules →
        (∃ r ∈ rules, r.predicate = p) →
        Selection.build catalog rules = ⟨[], .error .predicateTooDeep⟩) := by
  refine ⟨?_, depth_eq_height p, checkDepth_eq_ok_iff, ?_, fun hdeep => ?_⟩
  · have hends := Search.after_pending (.start p)
    have hfound : (Search.start p).found = p.height := depth_eq_height p
    rwa [hfound] at hends
  · rw [checkDepth_eq_error_iff]
    exact and_iff_right rfl
  · have hwithin : p.withinDepth = false := withinDepth_eq_false hdeep
    refine ⟨by simp [directive?, hwithin], by simp [isAlwaysTrue, hwithin],
      by simp [isAlwaysFalse, hwithin], fun catalog rules hl hmem => ?_⟩
    obtain ⟨r, hr, rfl⟩ := hmem
    exact Selection.build_of_tooDeep catalog hl ⟨r, hr, hdeep⟩

/-- The class of all suites, negated thirty-two times, is one level too high.  It is that class
again, but this is not seen, and nothing can be kept by it. -/
theorem search_finds_height_negations :
    Limits.predicateDepth < (Predicate.not^[32] .always).height ∧
    (Search.start (Predicate.not^[32] .always)).after 33 = some ⟨[], 33⟩ ∧
    (Predicate.not^[32] .always).isAlwaysTrue = false ∧
    Selection.build .builtin [⟨.add, .always⟩, ⟨.keepOnly, Predicate.not^[32] .always⟩] =
      ⟨[], .error .predicateTooDeep⟩ := by
  have hdeep : Limits.predicateDepth < (Predicate.not^[32] .always).height := by decide
  obtain ⟨hsearch, -, -, -, hrefused⟩ := search_finds_height (Predicate.not^[32] .always)
  obtain ⟨-, htrue, -, hbuild⟩ := hrefused hdeep
  refine ⟨hdeep, hsearch, htrue, hbuild .builtin _ (by decide) ?_⟩
  exact ⟨⟨.keepOnly, Predicate.not^[32] .always⟩, by simp, rfl⟩

end Predicate

end CipherRules
