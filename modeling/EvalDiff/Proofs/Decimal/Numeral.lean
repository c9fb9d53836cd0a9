import EvalDiff.Proofs.Decimal.Digits
import EvalDiff.Proofs.Text.Reader
import Mathlib.Algebra.Order.Field.Basic
import Mathlib.Algebra.Order.Field.Power
import Mathlib.Algebra.Order.Field.Rat
import Mathlib.Tactic.NormNum
import Mathlib.Tactic.Ring

/-!
# What a numeral stands for

The exact value of a numeral as a rational number, and the numeral that a whole text is.
-/

namespace EvalDiff
namespace Decimal

variable {c : Char} {rest : List Char}

namespace Numeral

/-- The exact value without the sign. -/
def magnitude (n : Numeral) : ℚ := n.coefficient * 10 ^ n.scale

def value (n : Numeral) : ℚ := if n.negative then -n.magnitude else n.magnitude

/-- Zeros at the end of the fraction make no difference. -/
theorem magnitude_append_zeros (negative : Bool) (whole fraction : List Char) (exponent : Int)
    (k : Nat) :
    magnitude ⟨negative, whole, fraction ++ List.replicate k '0', exponent⟩ =
      magnitude ⟨negative, whole, fraction, exponent⟩ := by
  have hscale : exponent - fraction.length = exponent - (fraction.length + k : Nat) + k := by omega
  rw [magnitude, magnitude, coefficient, coefficient, scale, scale, ← List.append_assoc,
    natOfDigits_append, natOfDigits_replicate_zero, List.length_append, List.length_replicate,
    hscale, zpow_add₀ (by norm_num), zpow_natCast]
  push_cast
  ring

theorem magnitude_dropTrailing (negative : Bool) (whole fraction : List Char) (exponent : Int) :
    magnitude ⟨negative, whole, dropTrailing '0' fraction, exponent⟩ =
      magnitude ⟨negative, whole, fraction, exponent⟩ := by
  obtain ⟨k, hk⟩ := exists_dropTrailing '0' fraction
  calc magnitude ⟨negative, whole, dropTrailing '0' fraction, exponent⟩
      = magnitude ⟨negative, whole, dropTrailing '0' fraction ++ List.replicate k '0', exponent⟩ :=
        (magnitude_append_zeros _ _ _ _ _).symm
    _ = magnitude ⟨negative, whole, fraction, exponent⟩ := by rw [← hk]

theorem magnitude_parts (negative : Bool) (places n : Nat) (exponent : Int) :
    magnitude ⟨negative, wholePart places n, fractionPart places n, exponent⟩ =
      n * 10 ^ (exponent - places) := by
  rw [magnitude, coefficient, scale, wholePart_append_fractionPart, natOfDigits_paddedDigits,
    length_fractionPart]

end Numeral

/-- The numeral that a whole text is. -/
def numeral? (cs : List Char) : Option Numeral :=
  let (negative, cs) := readSign cs
  match readUnsigned negative cs with
  | some (numeral, []) => some numeral
  | _ => none

theorem readSign_of_isDigit (h : c.isDigit = true) (cs : List Char) :
    readSign (c :: cs) = (false, c :: cs) := by
  have hminus : c ≠ '-' := by
    rintro rfl
    cases h
  have hplus : c ≠ '+' := by
    rintro rfl
    cases h
  simp [readSign, hminus, hplus]

theorem readFraction_of_ne (h : ∀ c ∈ rest.head?, c ≠ '.') : readFraction rest = ([], rest) := by
  cases rest with
  | nil => rfl
  | cons c rest => simp [readFraction, h c rfl]

end Decimal
end EvalDiff
