import CipherRules.Predicate
import Mathlib.Data.List.Basic

/-!
# Predicates — Attributes

What a predicate looks at.  A condition is about one attribute of a suite (`Condition.about`),
and a predicate about those of its conditions (`Predicate.attributes`); suites that agree on these
are accepted alike (`Predicate.accepts_congr`).

Attributes are independent of each other: `Suite.splice` takes some from one suite and the others
from another, so two predicates without a common attribute hold and fail independently
(`exists_accepts_both`).
-/

namespace CipherRules

/-- What a condition can be about. -/
inductive Attribute where
  | protocol | keyExchange | authentication | encryption | digest | strength | exportGrade | fips
  | name
  deriving DecidableEq

namespace Condition

/-- The attribute that the condition is about. -/
def about : Condition → Attribute
  | .protocol _       => .protocol
  | .keyExchange _    => .keyExchange
  | .authentication _ => .authentication
  | .encryption _     => .encryption
  | .digest _         => .digest
  | .strength _       => .strength
  | .exportGrade _    => .exportGrade
  | .fips _           => .fips
  | .name _           => .name

end Condition

/-- The attributes that the leaves of a predicate are about, from left to right. -/
def Predicate.attributes : Predicate → List Attribute
  | .always | .never => []
  | .condition c => [c.about]
  | .and p q | .or p q => p.attributes ++ q.attributes
  | .not p => p.attributes

/-- The two suites have the same value of the attribute. -/
def Suite.AgreesOn (s t : Suite) : Attribute → Prop
  | .protocol       => s.protocol = t.protocol
  | .keyExchange    => s.keyExchange = t.keyExchange
  | .authentication => s.authentication = t.authentication
  | .encryption     => s.encryption = t.encryption
  | .digest         => s.digest = t.digest
  | .strength       => s.strength = t.strength
  | .exportGrade    => s.exportGrade = t.exportGrade
  | .fips           => s.fips = t.fips
  | .name           => s.name = t.name

theorem Condition.accepts_congr {c : Condition} {s t : Suite} (h : s.AgreesOn t c.about) :
    c.accepts s = c.accepts t := by
  cases c with
  | _ values =>
    simp only [about, Suite.AgreesOn] at h
    simp only [accepts, h]

/-- **A predicate looks at nothing but its attributes.** -/
theorem Predicate.accepts_congr {s t : Suite} : ∀ {p : Predicate},
    (∀ a ∈ p.attributes, s.AgreesOn t a) → p.accepts s = p.accepts t
  | .always, _ | .never, _ => rfl
  | .condition _, h => Condition.accepts_congr (h _ (List.mem_singleton_self _))
  | .and p q, h => by
      have hp : p.accepts s = p.accepts t :=
        accepts_congr fun a ha => h a (List.mem_append_left _ ha)
      have hq : q.accepts s = q.accepts t :=
        accepts_congr fun a ha => h a (List.mem_append_right _ ha)
      simp only [accepts, hp, hq]
  | .or p q, h => by
      have hp : p.accepts s = p.accepts t :=
        accepts_congr fun a ha => h a (List.mem_append_left _ ha)
      have hq : q.accepts s = q.accepts t :=
        accepts_congr fun a ha => h a (List.mem_append_right _ ha)
      simp only [accepts, hp, hq]
  | .not p, h => by
      have hp : p.accepts s = p.accepts t := accepts_congr h
      simp only [accepts, hp]

/-- The suite `t` with the attributes of the list taken from `s`. -/
def Suite.splice (l : List Attribute) (s t : Suite) : Suite :=
  { t with
    name := if .name ∈ l then s.name else t.name
    protocol := if .protocol ∈ l then s.protocol else t.protocol
    keyExchange := if .keyExchange ∈ l then s.keyExchange else t.keyExchange
    authentication := if .authentication ∈ l then s.authentication else t.authentication
    encryption := if .encryption ∈ l then s.encryption else t.encryption
    digest := if .digest ∈ l then s.digest else t.digest
    exportGrade := if .exportGrade ∈ l then s.exportGrade else t.exportGrade
    strength := if .strength ∈ l then s.strength else t.strength
    fips := if .fips ∈ l then s.fips else t.fips }

section Splice

variable {l : List Attribute} {a : Attribute}

theorem Suite.splice_agreesOn_left (s t : Suite) (h : a ∈ l) : (splice l s t).AgreesOn s a := by
  cases a <;> exact if_pos h

theorem Suite.splice_agreesOn_right (s t : Suite) (h : a ∉ l) : (splice l s t).AgreesOn t a := by
  cases a <;> exact if_neg h

end Splice

/-- **Predicates without a common attribute are independent.**  If the one gives an answer for some
suite, and the other one for some suite, then a single suite gets both answers. -/
theorem Predicate.exists_accepts_both {p q : Predicate} {b c : Bool}
    (hdisjoint : p.attributes.Disjoint q.attributes) (hp : ∃ s, p.accepts s = b)
    (hq : ∃ t, q.accepts t = c) : ∃ u, p.accepts u = b ∧ q.accepts u = c := by
  obtain ⟨s, hs⟩ := hp
  obtain ⟨t, ht⟩ := hq
  refine ⟨.splice p.attributes s t, ?_, ?_⟩
  · rw [accepts_congr fun a ha => Suite.splice_agreesOn_left s t ha, hs]
  · rw [accepts_congr fun a ha => Suite.splice_agreesOn_right s t fun hp => hdisjoint hp ha, ht]

end CipherRules
