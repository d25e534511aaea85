import CipherRules.Text.Escape
import Mathlib.Tactic.Linarith

/-!
# Text — Escaped code points

The digits of a code point in an escape, as they are written and as they are read.  `Escape.Spells`
says that a row of digits completes an escape; it is independent of the reader that the escape is
read by.

* `hexValue?_hexDigit`: a digit has the value that it was written for.
* `spells_fixedHex`: a code point in so many digits spells its character.
-/

namespace CipherRules.Text

/-- A digit has the value that it was written for. -/
theorem hexValue?_hexDigit {n : Nat} (h : n < 16) : hexValue? (hexDigit n) = some n := by
  have hdigits : ∀ d : Fin 16, hexValue? (hexDigit d) = some d.val := by decide
  exact hdigits ⟨n, h⟩

theorem mem_fixedHex {width n : Nat} {c : Char} (h : c ∈ fixedHex width n) :
    ∃ d < 16, c = hexDigit d := by
  induction width generalizing n with
  | zero => cases h
  | succ width ih =>
    rcases List.mem_append.1 h with h | h
    · exact ih h
    · exact ⟨n % 16, Nat.mod_lt _ (by decide), List.mem_singleton.1 h⟩

/-- The code point of a character gives the character back. -/
theorem charOfCode?_toNat (c : Char) : charOfCode? c.toNat = some c := by
  have hvalid : c.toNat.isValidChar := c.valid
  rw [charOfCode?, if_pos hvalid, Char.ofNat_toNat]

/-- The digits that complete the escape of a code point, of which so many are to come and those
before have a value. -/
inductive Escape.Spells (c : Char) : Nat → Nat → Text → Prop where
  | last {left value : Nat} {d : Char} (h : digest left value d = .char c) :
      Spells c left value [d]
  | more {left value left' value' : Nat} {d : Char} {ds : Text}
      (h : digest left value d = .more (.digits left' value')) (hds : Spells c left' value' ds) :
      Spells c left value (d :: ds)

namespace Escape

theorem digest_hexDigit_more {left value n : Nat} (hleft : 1 < left) (h : n < 16) :
    digest left value (hexDigit n) = .more (.digits (left - 1) (16 * value + n)) := by
  simp only [digest, hexValue?_hexDigit h, if_neg (Nat.not_le.2 hleft)]

theorem digest_hexDigit_last {value n : Nat} {c : Char} (h : n < 16)
    (hc : 16 * value + n = c.toNat) : digest 1 value (hexDigit n) = .char c := by
  simp only [digest, hexValue?_hexDigit h, hc, charOfCode?_toNat, le_refl, if_true]

/-- Digits in front of others add their number to the value. -/
theorem Spells.fixedHex_append {c : Char} {ds : Text} {width left : Nat} (hleft : 0 < left) :
    ∀ {value n : Nat}, n < 16 ^ width → Spells c left (16 ^ width * value + n) ds →
      Spells c (width + left) value (fixedHex width n ++ ds) := by
  induction width generalizing ds left with
  | zero =>
    intro value n hn hds
    obtain rfl : n = 0 := by omega
    simpa [fixedHex] using hds
  | succ width ih =>
    intro value n hn hds
    have hdigit : n % 16 < 16 := Nat.mod_lt _ (by decide)
    have hfront : n / 16 < 16 ^ width := by
      rw [pow_succ] at hn
      exact Nat.div_lt_of_lt_mul (by omega)
    have hvalue : 16 * (16 ^ width * value + n / 16) + n % 16 = 16 ^ (width + 1) * value + n := by
      have hn := Nat.div_add_mod n 16
      rw [pow_succ]
      linarith
    rw [fixedHex, List.append_assoc, List.singleton_append, Nat.succ_add_eq_add_succ]
    refine ih (Nat.succ_pos left) hfront (.more (digest_hexDigit_more (by omega) hdigit) ?_)
    rw [hvalue]
    exact hds

/-- **A code point in so many digits spells its character.** -/
theorem spells_fixedHex {c : Char} {width : Nat} (h : c.toNat < 16 ^ (width + 1)) :
    Spells c (width + 1) 0 (fixedHex (width + 1) c.toNat) := by
  have hfront : c.toNat / 16 < 16 ^ width := by
    rw [pow_succ] at h
    exact Nat.div_lt_of_lt_mul (by omega)
  rw [fixedHex]
  refine Spells.fixedHex_append Nat.one_pos hfront (.last (digest_hexDigit_last ?_ ?_))
  · exact Nat.mod_lt _ (by decide)
  · rw [Nat.mul_zero, Nat.zero_add]
    exact Nat.div_add_mod _ _

end Escape

/-! ### Results with something in front -/

section Results

variable {α : Type} (s t : Text) (c : Char) (rest : α)

@[simp] theorem withText_some : withText s (some (t, rest)) = some (s ++ t, rest) := rfl

@[simp] theorem withChar_some : withChar c (some (t, rest)) = some (c :: t, rest) := rfl

@[simp] theorem withText_nil (result : Option (Text × α)) : withText [] result = result := by
  cases result <;> rfl

end Results

end CipherRules.Text
