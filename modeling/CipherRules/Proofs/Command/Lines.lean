import CipherRules.Command.Check
import Mathlib.Data.List.TakeWhile

/-!
# Commands — Lines

Telling printed lines apart.  A number in front of a space can be read off again
(`Text.ofNat_append_inj`), and so can what stands behind a mark (`marked_inj`); a good mark is no
warning (`marked_good_ne_warning`).
-/

namespace CipherRules

/-! ### Numbers -/

theorem Text.ofNat_injective : Function.Injective Text.ofNat := by
  intro m n h
  have hvalue := congrArg (Nat.ofDigitChars 10 · 0) h
  simp only [Text.ofNat, Nat.ofDigitChars_toDigits (b := 10) (by decide) (by decide)] at hvalue
  exact hvalue

/-- The digits of a number end at the first space. -/
theorem Text.takeWhile_ofNat_append (n : Nat) (t : Text) :
    (ofNat n ++ ' ' :: t).takeWhile Char.isDigit = ofNat n := by
  have hdigits : ∀ c ∈ ofNat n, c.isDigit = true := fun c hc =>
    Nat.isDigit_of_mem_toDigits (by decide) (by decide) hc
  have hspace : (' ' :: t).takeWhile Char.isDigit = [] := rfl
  rw [List.takeWhile_append_of_pos hdigits, hspace, List.append_nil]

/-- A number in front of a space can be read off. -/
theorem Text.ofNat_append_inj {m n : Nat} {s t : Text} :
    ofNat m ++ ' ' :: s = ofNat n ++ ' ' :: t ↔ m = n ∧ s = t := by
  constructor
  · intro h
    have hdigits := congrArg (List.takeWhile Char.isDigit) h
    rw [takeWhile_ofNat_append, takeWhile_ofNat_append] at hdigits
    obtain rfl := ofNat_injective hdigits
    exact ⟨rfl, (List.cons.inj (List.append_cancel_left h)).2⟩
  · rintro ⟨rfl, rfl⟩
    rfl

namespace Command

/-! ### Marks -/

theorem marked_inj {mark s t : Text} : marked mark s = marked mark t ↔ s = t :=
  List.append_right_inj _

/-- What is as it should be is no warning. -/
theorem marked_good_ne_warning {s t : Text} : marked goodMark s ≠ marked warningMark t := by
  intro h
  have hmark := congrArg (fun text => text[2]?) h
  exact absurd hmark (by decide : some '✓' ≠ some '⚠')

end Command

end CipherRules
