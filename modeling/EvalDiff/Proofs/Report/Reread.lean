import EvalDiff.Proofs.Binary64.Reading
import EvalDiff.Proofs.Binary64.SignificantReading
import EvalDiff.Proofs.Report.Amount

/-!
# Amounts that are read and written again

The text of an amount is kept when it is read as a double and that double is written.  The double
may be another one than the first, but it has the same twelve digits and the same exponent, and the
text is made from these alone.  Below the normal doubles there are fewer than twelve digits to
keep.
-/

namespace EvalDiff
namespace Report

open Decimal Binary64

variable {rank other n : Nat} {e : Int}

theorem two_zpow_mul_unitsPerOne : (2 : ℚ) ^ (-1022 : Int) * unitsPerOne = binade := by
  obtain ⟨k, hk⟩ : ∃ k, k = 1074 := ⟨_, rfl⟩
  rw [← two_pow_eq_unitsPerOne hk, binade_eq, Nat.cast_pow, Nat.cast_pow, Nat.cast_ofNat,
    ← zpow_natCast, ← zpow_natCast, ← zpow_add₀ (by norm_num), hk]
  rfl

/-- The normal doubles begin with the first full binade. -/
theorem normal_iff : (2 : ℚ) ^ (-1022 : Int) ≤ rankValue rank ↔ binade ≤ rank := by
  have hone : (0 : ℚ) < unitsPerOne := by exact_mod_cast unitsPerOne_pos
  have hunits : (binade : ℚ) = units binade := by rw [units_binade]
  rw [rankValue, le_div_iff₀ hone, two_zpow_mul_unitsPerOne, hunits, Nat.cast_le,
    units_strictMono.le_iff_le]

/-- The double that a normal amount is read as has the rank of a rounding of the decimal, and with
it the digits of the decimal. -/
theorem exists_reread_number (negative : Bool) (hrank : binade ≤ rank) (htop : rank < topRank) :
    let x := number negative rank (Nat.le_of_lt htop)
    ∃ y, ofToken (amount x) = .ok y ∧ y.isFinite = true ∧ amount y = amount x := by
  intro x
  have hpos : 0 < rank := Nat.lt_of_lt_of_le (by decide) hrank
  obtain ⟨⟨n, e⟩, h⟩ : ∃ d, significant amountDigits rank = d := ⟨_, rfl⟩
  obtain ⟨numeral, hnumeral, hnegative, hmagnitude, -⟩ := numeral?_magnitudeText hpos h negative
  rw [← toList_amount negative hpos htop, numeral?_eq_some_iff] at hnumeral
  obtain ⟨other, hread, hrounds⟩ := exists_rounds_ofNumeral hnumeral.isDigit
  rw [hmagnitude] at hrounds
  have hother : other < topRank := by
    rw [← not_le, hrounds.topRank_le_iff, not_le]
    have hone : (0 : ℚ) < unitsPerOne := by exact_mod_cast unitsPerOne_pos
    exact mul_lt_mul_of_pos_right (significant_lt_overflowBound hpos htop h) hone
  obtain ⟨hother0, hdigits⟩ := significant_of_rounds (by decide) (by decide) hrank h hrounds
  refine ⟨number negative other (Nat.le_of_lt hother), ?_, decide_eq_true hother, ?_⟩
  · rw [ofToken_of_spells hnumeral, hread, hnegative, ofRank_of_le]
  · rw [← String.toList_inj, toList_amount negative hother0 hother,
      toList_amount negative hpos htop, magnitudeText_eq_of_significant hpos hother0 h hdigits]

theorem exists_reread_zero (negative : Bool) :
    ∃ y, ofToken (amount (ofRank negative 0)) = .ok y ∧ y.isFinite = true ∧
      amount y = amount (ofRank negative 0) := by
  refine ⟨ofRank negative 0, ?_⟩
  cases negative <;> decide +kernel

/-- To write an amount, to read it and to write it again is to write it once, for zeros and for all
normal doubles.  Nothing finite is read as infinity. -/
theorem amount_reread (x : Binary64) (hfinite : x.isFinite = true)
    (hnormal : x.isZero = true ∨ (2 : ℚ) ^ (-1022 : Int) ≤ |x.toRat|) :
    ∃ y, ofToken (amount x) = .ok y ∧ y.isFinite = true ∧ amount y = amount x := by
  cases x with
  | nan => cases hfinite
  | number negative rank hle =>
    rcases hnormal with hzero | hnormal
    · obtain rfl : rank = 0 := beq_iff_eq.mp hzero
      rw [← ofRank_of_le]
      exact exists_reread_zero negative
    · rw [abs_toRat_number] at hnormal
      exact exists_reread_number negative (normal_iff.mp hnormal) (of_decide_eq_true hfinite)

/-- The double after the one that 10^23 is read as, which is below 10^23, has the same text. -/
theorem amount_reread_power_of_ten :
    let x := number false 0x44b52d02c7e14af7 (by decide)
    x.isFinite = true ∧ (2 : ℚ) ^ (-1022 : Int) ≤ |x.toRat| ∧ amount x = "1e+23" ∧
      ∃ y, ofToken "1e+23" = .ok y ∧ y.toBits + 1 = x.toBits ∧ y.isFinite = true ∧
        amount y = "1e+23" := by
  intro x
  have hfinite : x.isFinite = true := by decide
  have hnormal : (2 : ℚ) ^ (-1022 : Int) ≤ |x.toRat| := by
    rw [abs_toRat_number, normal_iff]
    decide
  have htext : amount x = "1e+23" := by decide +kernel
  obtain ⟨y, hread, hy, hsame⟩ := amount_reread x hfinite (.inr hnormal)
  rw [htext] at hread hsame
  have hbits : (ofToken "1e+23").toOption.map toBits = some 0x44b52d02c7e14af6 := by
    decide +kernel
  rw [hread] at hbits
  exact ⟨hfinite, hnormal, htext, y, hread, by rw [Option.some.inj hbits]; rfl, hy, hsame⟩

end Report
end EvalDiff
