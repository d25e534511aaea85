import CipherRules.Catalog.Builtin
import CipherRules.Proofs.Selection.Outcome
import CipherRules.Proofs.WorkingSet.Redundancy

/-!
# Selections — Redundant rules

Rules that a list of rules could as well be without.  One that repeats the rule before it changes no
working set that rules reach, and no selection (`build_repeated_rule`).  One that adds what an
earlier rule has added brings back neither a suite that was deleted nor the priority of one that was
moved to the end, as long as no rule in between keeps a class (`build_redundant_add`).
-/

namespace CipherRules.Selection

open WorkingSet (after coherent_after)

variable {p q : Predicate}

/-! ### Repeated rules -/

/-- **Repeating a rule changes nothing.**  Whatever rules a working set was reached by, a further
rule that is applied twice in a row leaves the order and the flags that it leaves when it is applied
once.  So within the limits a rule that is repeated makes no difference to the selection. -/
theorem build_repeated_rule (catalog : Catalog) :
    (∀ (rules : List Rule) (r : Rule),
      ((after catalog rules).apply catalog r).apply catalog r =
        (after catalog rules).apply catalog r) ∧
    (∀ (before later : List Rule) (r : Rule), WithinLimits (before ++ [r, r] ++ later) →
      SameChoice (build catalog (before ++ [r, r] ++ later)).value
        (build catalog (before ++ [r] ++ later)).value) := by
  refine ⟨fun rules r => (coherent_after catalog rules).apply_apply r, fun before later r h => ?_⟩
  have honce : WithinLimits (before ++ [r] ++ later) := h.sublist (by simp)
  refine sameChoice_of_order_eq h honce ?_
  rw [WorkingSet.after_repeated]

/-- Suites with RC4.  Those with authentication by RSA are pushed to the end, and the other suites
with it appended behind them; the second time there is nothing left to move or to append. -/
theorem build_repeated_push :
    SameChoice
      (build Catalog.builtin ([⟨.add, .encryption [.rc4]⟩] ++
        [⟨.pushToEnd, .authentication [.rsa]⟩, ⟨.pushToEnd, .authentication [.rsa]⟩] ++
        [⟨.delete, .strength [.high]⟩])).value
      (build Catalog.builtin ([⟨.add, .encryption [.rc4]⟩] ++
        [⟨.pushToEnd, .authentication [.rsa]⟩] ++ [⟨.delete, .strength [.high]⟩])).value := by
  obtain ⟨-, hbuild⟩ := build_repeated_rule Catalog.builtin
  exact hbuild _ _ _ ⟨by decide, by decide⟩

/-! ### Redundant additions -/

/-- **A redundant addition restores neither priority nor membership.**  Once a class has been added,
or pushed to the end, adding it or a part of it again makes no difference to the selection, whatever
stands before, in between and behind, if only no rule in between keeps a class. -/
theorem build_redundant_add (catalog : Catalog) (before middle later : List Rule)
    {op : Operation} (hop : op = .add ∨ op = .pushToEnd)
    (hpq : ∀ s ∈ catalog.suites, q.accepts s = true → p.accepts s = true)
    (hmiddle : ∀ r ∈ middle, r.operation ≠ .keepOnly)
    (h : WithinLimits (before ++ ⟨op, p⟩ :: middle ++ ⟨.add, q⟩ :: later)) :
    SameChoice (build catalog (before ++ ⟨op, p⟩ :: middle ++ ⟨.add, q⟩ :: later)).value
      (build catalog (before ++ ⟨op, p⟩ :: middle ++ later)).value := by
  have hwithout : WithinLimits (before ++ ⟨op, p⟩ :: middle ++ later) :=
    h.sublist ((List.Sublist.refl _).append (List.sublist_cons_self _ later))
  refine sameChoice_of_order_eq h hwithout ?_
  rw [WorkingSet.after_add_of_exhausted catalog before middle later hop hpq hmiddle]

/-- Suites with RC4 are demoted if their key exchange is by RSA, and stay so when these are added
again: they come behind the suites with RC4 that are left, and the anonymous ones stay deleted. -/
theorem build_redundant_rc4 :
    SameChoice
      (build Catalog.builtin ([⟨.delete, .authentication [.null]⟩] ++
        ⟨.add, .encryption [.rc4]⟩ :: [⟨.remove, .keyExchange [.rsa]⟩] ++
        ⟨.add, .and (.encryption [.rc4]) (.keyExchange [.rsa])⟩ :: [⟨.add, .always⟩])).value
      (build Catalog.builtin ([⟨.delete, .authentication [.null]⟩] ++
        ⟨.add, .encryption [.rc4]⟩ :: [⟨.remove, .keyExchange [.rsa]⟩] ++
        [⟨.add, .always⟩])).value := by
  refine build_redundant_add Catalog.builtin _ _ _ (.inl rfl) ?_ (by simp) ⟨by decide, by decide⟩
  intro s _ hboth
  simp only [Predicate.accepts, Bool.and_eq_true] at hboth
  exact hboth.1

end CipherRules.Selection
