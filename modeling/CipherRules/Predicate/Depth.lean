import CipherRules.Limits
import CipherRules.Predicate
import CipherRules.SelectionError

/-!
# Predicates — Depth

How deeply a predicate is nested; a leaf has depth one.  `Predicate.depth` visits the subtrees one
by one from a work list, so that its need of stack does not grow with the predicate, and ends
because the nodes that wait become fewer.  `depth_eq_height` says that it finds the height of the
tree.
-/

namespace CipherRules.Predicate

/-- The number of nodes. -/
def size : Predicate → Nat
  | .always | .never | .condition _ => 1
  | .and p q | .or p q => p.size + q.size + 1
  | .not p => p.size + 1

/-- The height of the tree: one at a leaf, one more than the highest operand at a node. -/
def height : Predicate → Nat
  | .always | .never | .condition _ => 1
  | .and p q | .or p q => max p.height q.height + 1
  | .not p => p.height + 1

/-- The operands, the last one first. -/
def operands : Predicate → List Predicate
  | .always | .never | .condition _ => []
  | .and p q | .or p q => [q, p]
  | .not p => [p]

/-- The greater of `best` and the depths reached from the waiting subtrees, each of which stands
with its own depth. -/
def deepest : List (Predicate × Nat) → Nat → Nat
  | [], best => best
  | (p, d) :: waiting, best =>
      deepest (p.operands.map (fun q => (q, d + 1)) ++ waiting) (max best d)
termination_by waiting => waiting.foldr (fun w n => w.1.size + n) 0
decreasing_by
  cases p <;> simp [operands, size] <;> omega

/-- The nesting depth of a predicate. -/
def depth (p : Predicate) : Nat := deepest [(p, 1)] 0

/-- The work list reaches from each waiting subtree as deep as the subtree is high. -/
theorem deepest_eq (waiting : List (Predicate × Nat)) (best : Nat) :
    deepest waiting best = waiting.foldl (fun b w => max b (w.2 + w.1.height - 1)) best := by
  fun_induction deepest waiting best with
  | case1 => rfl
  | case2 p d waiting best ih =>
    rw [ih, List.foldl_append, List.foldl_cons]
    congr 1
    cases p <;> simp [operands, height] <;> omega

theorem height_pos (p : Predicate) : 0 < p.height := by
  cases p <;> simp [height]

/-- The depth is the height of the tree. -/
theorem depth_eq_height (p : Predicate) : p.depth = p.height := by
  simp [depth, deepest_eq]

/-- Whether the depth is within the limit. -/
def withinDepth (p : Predicate) : Bool := p.depth ≤ Limits.predicateDepth

theorem withinDepth_iff {p : Predicate} :
    p.withinDepth = true ↔ p.height ≤ Limits.predicateDepth := by
  rw [withinDepth, decide_eq_true_iff, depth_eq_height]

/-- Refuses a tree that is too deep. -/
def checkDepth (p : Predicate) : Except SelectionError Unit :=
  if p.withinDepth then .ok () else .error .predicateTooDeep

end CipherRules.Predicate
