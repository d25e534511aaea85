import CipherRules.Predicate.Description
import CipherRules.Proofs.Predicate.Attribute
import CipherRules.Proofs.RuleString.Directive
import CipherRules.Proofs.Text
import Mathlib.Data.List.Nodup

/-!
# Predicates — Descriptions are unambiguous

A description says which predicate it describes.  It also says where it ends: whatever stands behind
two descriptions, if the whole texts are equal, then the predicates are, and so is what stands behind
them (`decodes`).  In this form it goes through an induction on the predicate, since an operand has
the rest of the description behind it.

* `Text.join_inj_of_listable`: texts are read off their list if they are listable, as the labels of
  the attribute families are.
* `Condition.describe_append_inj`: the list of the values of a condition stands between the first
  parenthesis and the next one that closes.  The subject in front of it tells which family the values
  belong to, since several families have a value of the same label.
* `opening_eq_of_describe`: the first letters of a description tell what stands at the root, except
  that they do not tell a conjunction from a disjunction.  These differ behind their first operand.
-/

namespace CipherRules

/-! ### Lists in parentheses -/

namespace Text

/-- A text that can be told apart from others in a list. -/
structure Listable (t : Text) : Prop where
  ne_nil : t ≠ []
  no_comma : ',' ∉ t
  no_close : ')' ∉ t

instance (t : Text) : Decidable t.Listable :=
  decidable_of_iff (t ≠ [] ∧ ',' ∉ t ∧ ')' ∉ t)
    ⟨fun ⟨h₁, h₂, h₃⟩ => ⟨h₁, h₂, h₃⟩, fun h => ⟨h.ne_nil, h.no_comma, h.no_close⟩⟩

/-- The first place of a character shows what stands in front of it and behind it. -/
theorem append_cons_inj {c : Char} {x y : Text} : ∀ {s t : Text}, c ∉ s → c ∉ t →
    s ++ c :: x = t ++ c :: y → s = t ∧ x = y
  | [], [], _, _, h => ⟨rfl, (List.cons.inj h).2⟩
  | [], d :: _, _, ht, h => absurd ((List.cons.inj h).1 ▸ List.mem_cons_self) ht
  | d :: _, [], hs, _, h => absurd ((List.cons.inj h).1 ▸ List.mem_cons_self) hs
  | d :: s, e :: t, hs, ht, h => by
      obtain ⟨hde, hrest⟩ := List.cons.inj h
      obtain ⟨hst, hxy⟩ := append_cons_inj (fun hc => hs (List.mem_cons_of_mem d hc))
        (fun hc => ht (List.mem_cons_of_mem e hc)) hrest
      exact ⟨by rw [hde, hst], hxy⟩

/-- A glue of two characters is a separator and one more character in front of each later text. -/
theorem join_cons_pair (sep c : Char) (t : Text) (rest : List Text) :
    join [sep, c] (t :: rest) = join [sep] (t :: rest.map (c :: ·)) := by
  induction rest generalizing t with
  | nil => rfl
  | cons u rest ih =>
    rw [join_cons_cons, ih, List.map_cons, join_cons_cons, join_cons_char]
    simp only [List.append_assoc, List.cons_append, List.nil_append]

theorem join_cons_ne_nil {glue t : Text} (ht : t ≠ []) (rest : List Text) :
    join glue (t :: rest) ≠ [] := by
  cases rest with
  | nil => exact ht
  | cons u rest => simp [join_cons_cons, ht]

/-- Listable texts can be read off their list. -/
theorem join_inj_of_listable : ∀ {ts us : List Text}, (∀ t ∈ ts, Listable t) →
    (∀ u ∈ us, Listable u) → join (.of ", ") ts = join (.of ", ") us → ts = us
  | [], [], _, _, _ => rfl
  | [], u :: us, _, hus, h => absurd h.symm (join_cons_ne_nil (hus u List.mem_cons_self).ne_nil us)
  | t :: ts, [], hts, _, h => absurd h (join_cons_ne_nil (hts t List.mem_cons_self).ne_nil ts)
  | t :: ts, u :: us, hts, hus, h => by
      have hpieces : ∀ {v : Text} {vs : List Text}, (∀ w ∈ v :: vs, Listable w) →
          pieces ',' (join [','] (v :: vs.map (' ' :: ·))) = v :: vs.map (' ' :: ·) := by
        intro v vs hall
        refine pieces_join (List.cons_ne_nil _ _) fun w hw => ?_
        rcases List.mem_cons.1 hw with rfl | hw
        · exact (hall w List.mem_cons_self).no_comma
        · obtain ⟨z, hz, rfl⟩ := List.mem_map.1 hw
          simpa using (hall z (List.mem_cons_of_mem v hz)).no_comma
      have hjoin := congrArg (pieces ',') h
      rw [join_cons_pair, join_cons_pair, hpieces hts, hpieces hus] at hjoin
      obtain ⟨htu, hrest⟩ := List.cons.inj hjoin
      have hinjective : Function.Injective (' ' :: · : Text → Text) := List.cons_injective
      rw [htu, hinjective.list_map hrest]

end Text

/-! ### Labels -/

/-- A family whose values have different labels, each of them listable. -/
class LegibleFamily (α : Type) [Family α] : Prop where
  nodup_labels : ((Family.all : List α).map Family.label).Nodup
  listable_labels : ∀ t ∈ (Family.all : List α).map Family.label, t.Listable

instance : LegibleFamily Protocol := ⟨by decide, by decide⟩

instance : LegibleFamily KeyExchange := ⟨by decide, by decide⟩

instance : LegibleFamily Authentication := ⟨by decide, by decide⟩

instance : LegibleFamily Encryption := ⟨by decide, by decide⟩

instance : LegibleFamily Digest := ⟨by decide, by decide⟩

instance : LegibleFamily Strength := ⟨by decide, by decide⟩

instance : LegibleFamily Bool := ⟨by decide, by decide⟩

namespace ValueSet

/-- A set is known by its labels, if they tell its values apart. -/
theorem eq_of_labels_eq {α : Type} [Value α] {s t : ValueSet α}
    (hlabel : Function.Injective (Value.label : α → Text)) (h : s.labels = t.labels) : s = t :=
  eq_of_values_eq (hlabel.list_map h)

section Family

variable {α : Type} [DecidableEq α] [Family α] [LegibleFamily α]

theorem label_injective : Function.Injective (Value.label : α → Text) := fun a b h =>
  List.inj_on_of_nodup_map LegibleFamily.nodup_labels (Family.mem_all a) (Family.mem_all b) h

theorem listable_of_mem_labels {s : ValueSet α} {t : Text} (h : t ∈ s.labels) : t.Listable := by
  obtain ⟨a, -, rfl⟩ := List.mem_map.1 h
  exact LegibleFamily.listable_labels _ (List.mem_map_of_mem (Family.mem_all a))

end Family

end ValueSet

/-! ### Conditions -/

/-- How a description calls the attribute. -/
def Attribute.subject : Attribute → Text
  | .protocol       => .of "protocol"
  | .keyExchange    => .of "key exchange"
  | .authentication => .of "authentication"
  | .encryption     => .of "encryption"
  | .digest         => .of "digest"
  | .strength       => .of "strength"
  | .exportGrade    => .of "export"
  | .fips           => .of "fips"
  | .name           => .of "name"

theorem Attribute.subject_injective : Function.Injective Attribute.subject := by
  rintro ⟨⟩ ⟨⟩ h <;> first | rfl | exact absurd h (by decide)

namespace Condition

variable {c d : Condition} {x y : Text}

theorem subject_eq (c : Condition) : c.subject = c.about.subject := by
  cases c <;> rfl

/-- Each value of the condition is written as a listable text. -/
def Listable (c : Condition) : Prop := ∀ t ∈ c.valueLabels, t.Listable

/-- It depends on the names alone, since the labels of the families are listable. -/
theorem listable_of_names (h : ∀ n ∈ (Predicate.condition c).names, n.Listable) : c.Listable := by
  cases c with
  | name values =>
    intro t ht
    obtain ⟨n, hn, rfl⟩ := List.mem_map.1 ht
    exact h n hn
  | _ values => exact fun t ht => ValueSet.listable_of_mem_labels ht

/-- A condition is known by its attribute and the labels of its values. -/
theorem eq_of_valueLabels_eq (habout : c.about = d.about) (h : c.valueLabels = d.valueLabels) :
    c = d := by
  cases c <;> cases d <;> cases habout
  case name.name.refl =>
    exact congrArg Condition.name (ValueSet.eq_of_labels_eq Function.injective_id h)
  all_goals exact congrArg _ (ValueSet.eq_of_labels_eq ValueSet.label_injective h)

/-- The list of the values stands between the first parenthesis and the next one that closes. -/
theorem describe_append (c : Condition) (x : Text) :
    c.describe ++ x = (c.subject ++ Text.of " is one of ") ++
      '(' :: (Text.join (.of ", ") c.valueLabels ++ ')' :: x) := by
  simp only [describe, List.append_assoc, List.cons_append, List.nil_append]

theorem not_mem_subject (c : Condition) : '(' ∉ c.subject ++ Text.of " is one of " := by
  rw [subject_eq]
  cases c.about <;> decide

theorem not_mem_list (hc : c.Listable) : ')' ∉ Text.join (.of ", ") c.valueLabels :=
  Text.not_mem_join (by decide) fun t ht => (hc t ht).no_close

/-- **The description of a condition shows the condition and where it ends.** -/
theorem describe_append_inj (hc : c.Listable) (hd : d.Listable)
    (h : c.describe ++ x = d.describe ++ y) : c = d ∧ x = y := by
  rw [describe_append, describe_append] at h
  obtain ⟨hsubject, hrest⟩ := Text.append_cons_inj c.not_mem_subject d.not_mem_subject h
  obtain ⟨hlist, hxy⟩ := Text.append_cons_inj (not_mem_list hc) (not_mem_list hd) hrest
  have habout : c.about = d.about := by
    refine Attribute.subject_injective ?_
    rw [← subject_eq, ← subject_eq]
    exact List.append_cancel_right hsubject
  exact ⟨eq_of_valueLabels_eq habout (Text.join_inj_of_listable hc hd hlist), hxy⟩

end Condition

/-! ### Predicates -/

/-- What stands at the root of a predicate, as far as the first letters of its description tell. -/
inductive Opening where
  | always | never | condition | pair | not

namespace Opening

/-- The root that the first letters of a description tell. -/
def ofText : Text → Opening
  | '(' :: _        => .pair
  | 't' :: _        => .always
  | 'f' :: 'a' :: _ => .never
  | 'n' :: 'o' :: _ => .not
  | _               => .condition

end Opening

namespace Predicate

variable {p q : Predicate} {x y : Text}

/-- What stands at the root of a predicate. -/
def opening : Predicate → Opening
  | .always      => .always
  | .never       => .never
  | .condition _ => .condition
  | .and _ _     => .pair
  | .or _ _      => .pair
  | .not _       => .not

theorem ofText_describe_append (p : Predicate) (x : Text) :
    Opening.ofText (p.describe ++ x) = p.opening := by
  cases p with
  | condition c => cases c <;> rfl
  | _ => rfl

theorem opening_eq_of_describe (h : p.describe ++ x = q.describe ++ y) : p.opening = q.opening := by
  rw [← ofText_describe_append p x, h, ofText_describe_append]

/-- If the two descriptions, with anything behind them, are the same text, then the predicates are
equal, and so is what stands behind them. -/
def Decodes (p q : Predicate) : Prop :=
  ∀ {x y : Text}, p.describe ++ x = q.describe ++ y → p = q ∧ x = y

theorem describe_and_append (p q : Predicate) (x : Text) :
    (and p q).describe ++ x =
      '(' :: (p.describe ++ (Text.of ") and (" ++ (q.describe ++ ')' :: x))) := by
  simp only [describe, List.append_assoc, List.cons_append, List.nil_append]

theorem describe_or_append (p q : Predicate) (x : Text) :
    (or p q).describe ++ x =
      '(' :: (p.describe ++ (Text.of ") or (" ++ (q.describe ++ ')' :: x))) := by
  simp only [describe, List.append_assoc, List.cons_append, List.nil_append]

theorem describe_not_append (p : Predicate) (x : Text) :
    (not p).describe ++ x = Text.of "not (" ++ (p.describe ++ ')' :: x) := by
  simp only [describe, List.append_assoc, List.cons_append, List.nil_append]

/-- Both operands are read off around the same word. -/
theorem Decodes.operands {p₁ p₂ q₁ q₂ : Predicate} {word : Text} (hfirst : Decodes p₁ q₁)
    (hsecond : Decodes p₂ q₂)
    (h : '(' :: (p₁.describe ++ (word ++ (p₂.describe ++ ')' :: x))) =
      '(' :: (q₁.describe ++ (word ++ (q₂.describe ++ ')' :: y)))) :
    p₁ = q₁ ∧ p₂ = q₂ ∧ x = y := by
  obtain ⟨h₁, hrest⟩ := hfirst (List.cons.inj h).2
  obtain ⟨h₂, hclose⟩ := hsecond (List.append_cancel_left hrest)
  exact ⟨h₁, h₂, (List.cons.inj hclose).2⟩

/-- **A description shows the predicate and where it ends.** -/
theorem decodes (hp : ∀ n ∈ p.names, n.Listable) (hq : ∀ n ∈ q.names, n.Listable) :
    Decodes p q := by
  induction p generalizing q with
  | always =>
    intro x y h
    have hopening := opening_eq_of_describe h
    cases q with
    | always => exact ⟨rfl, List.append_cancel_left h⟩
    | _ => cases hopening
  | never =>
    intro x y h
    have hopening := opening_eq_of_describe h
    cases q with
    | never => exact ⟨rfl, List.append_cancel_left h⟩
    | _ => cases hopening
  | condition c =>
    intro x y h
    have hopening := opening_eq_of_describe h
    cases q with
    | condition d =>
      obtain ⟨rfl, hxy⟩ := Condition.describe_append_inj (Condition.listable_of_names hp)
        (Condition.listable_of_names hq) h
      exact ⟨rfl, hxy⟩
    | _ => cases hopening
  | and p₁ p₂ ih₁ ih₂ =>
    intro x y h
    have hopening := opening_eq_of_describe h
    obtain ⟨hp₁, hp₂⟩ := List.forall_mem_append.1 hp
    cases q with
    | and q₁ q₂ =>
      obtain ⟨hq₁, hq₂⟩ := List.forall_mem_append.1 hq
      rw [describe_and_append, describe_and_append] at h
      obtain ⟨rfl, rfl, hxy⟩ := Decodes.operands (ih₁ hp₁ hq₁) (ih₂ hp₂ hq₂) h
      exact ⟨rfl, hxy⟩
    | or q₁ q₂ =>
      -- the first operands end at the same place, and then the words differ
      obtain ⟨hq₁, -⟩ := List.forall_mem_append.1 hq
      rw [describe_and_append, describe_or_append] at h
      obtain ⟨-, hword⟩ := ih₁ hp₁ hq₁ (List.cons.inj h).2
      simp at hword
    | _ => cases hopening
  | or p₁ p₂ ih₁ ih₂ =>
    intro x y h
    have hopening := opening_eq_of_describe h
    obtain ⟨hp₁, hp₂⟩ := List.forall_mem_append.1 hp
    cases q with
    | and q₁ q₂ =>
      obtain ⟨hq₁, -⟩ := List.forall_mem_append.1 hq
      rw [describe_or_append, describe_and_append] at h
      obtain ⟨-, hword⟩ := ih₁ hp₁ hq₁ (List.cons.inj h).2
      simp at hword
    | or q₁ q₂ =>
      obtain ⟨hq₁, hq₂⟩ := List.forall_mem_append.1 hq
      rw [describe_or_append, describe_or_append] at h
      obtain ⟨rfl, rfl, hxy⟩ := Decodes.operands (ih₁ hp₁ hq₁) (ih₂ hp₂ hq₂) h
      exact ⟨rfl, hxy⟩
    | _ => cases hopening
  | not p ih =>
    intro x y h
    have hopening := opening_eq_of_describe h
    cases q with
    | not r =>
      have hr : ∀ n ∈ r.names, n.Listable := hq
      rw [describe_not_append, describe_not_append] at h
      obtain ⟨rfl, hclose⟩ := ih hp hr (List.append_cancel_left h)
      exact ⟨rfl, (List.cons.inj hclose).2⟩
    | _ => cases hopening

theorem description_of_height_le (h : p.height ≤ Limits.predicateDepth) :
    p.description = p.describe := by
  rw [description, if_pos (withinDepth_iff.2 h)]

/-- **Descriptions are unambiguous.**  Two predicates within the depth limit have the same
description only if they are the same, with the same trees and the same values, as long as no name in
them is empty or contains a comma or a closing parenthesis.  An opening parenthesis does no harm. -/
theorem description_eq_iff (hpdepth : p.height ≤ Limits.predicateDepth)
    (hqdepth : q.height ≤ Limits.predicateDepth) (hp : ∀ n ∈ p.names, n.Listable)
    (hq : ∀ n ∈ q.names, n.Listable) : p.description = q.description ↔ p = q := by
  constructor
  · intro h
    rw [description_of_height_le hpdepth, description_of_height_le hqdepth] at h
    have hends : p.describe ++ [] = q.describe ++ [] := by rw [h]
    exact (decodes hp hq hends).1
  · rintro rfl
    rfl

/-- No encryption and no authentication have the same label, and a name can look like a condition as
far as its parenthesis. -/
theorem description_eq_iff_null :
    (Predicate.or (.encryption [.null]) (.not (.name [.of "NULL", .of "fips is one of (true"]))
      ).description ≠
    (Predicate.or (.authentication [.null]) (.not (.name [.of "NULL", .of "fips is one of (true"]))
      ).description := by
  rw [Ne, description_eq_iff (by decide) (by decide) (by decide) (by decide)]
  decide

end Predicate

end CipherRules
