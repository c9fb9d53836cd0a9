import EvalDiff.Proofs.Binary64.Shortest
import Mathlib.Algebra.Group.Int.Even
import Mathlib.Data.Int.Log
import Mathlib.Data.Rat.Floor

/-!
# Significant digits of a double

`significant` rounds the exact value of a double to a number of significant decimal digits, half to
even: `significant_isRounding`.  The place of the last digit is told by the exponent after the
rounding, and to round the value itself at that place gives the same digits, also where the rounding
has gone over a power of ten: `roundedAt_significant`.
-/

namespace EvalDiff
namespace Binary64

open Decimal

variable {count rank n : Nat} {e : Int} {q r s : ℚ}

/-! ### Rounding to significant digits -/

/-- The weight of the last of `count` decimal digits, counted from the first digit of a number. -/
def lastPlace (count : Nat) (q : ℚ) : ℚ := 10 ^ (Int.log 10 |q| + 1 - count)

/-- A multiple of the weight of the last digit that is at most half of it away, and an even multiple
if it is just half of it away. -/
def IsSignificantRounding (count : Nat) (q r : ℚ) : Prop :=
  ∃ n : ℤ, r = n * lastPlace count q ∧ |r - q| ≤ lastPlace count q / 2 ∧
    (|r - q| = lastPlace count q / 2 → Even n)

theorem IsSignificantRounding.neg (h : IsSignificantRounding count q r) :
    IsSignificantRounding count (-q) (-r) := by
  obtain ⟨n, hr, hle, heven⟩ := h
  have hplace : lastPlace count (-q) = lastPlace count q := by rw [lastPlace, lastPlace, abs_neg]
  have hdist : |(-r) - (-q)| = |r - q| := by rw [neg_sub_neg, abs_sub_comm]
  refine ⟨-n, ?_, ?_, ?_⟩
  · rw [hplace, hr]
    push_cast
    ring
  · rw [hplace, hdist]
    exact hle
  · rw [hplace, hdist, even_neg]
    exact heven

theorem lastPlace_pos (count : Nat) (q : ℚ) : 0 < lastPlace count q := ten_zpow_pos _

/-- There is one rounding only: of two that are equally near, just one is even. -/
theorem IsSignificantRounding.unique (h : IsSignificantRounding count q r)
    (h' : IsSignificantRounding count q s) : r = s := by
  obtain ⟨n, hr, hle, heven⟩ := h
  obtain ⟨m, hs, hle', heven'⟩ := h'
  have hplace := lastPlace_pos count q
  have hdist : |r - s| ≤ |r - q| + |s - q| := by
    have htriangle := abs_sub_le r q s
    rwa [abs_sub_comm q s] at htriangle
  have hmul : |r - s| = |(n : ℚ) - m| * lastPlace count q := by
    rw [hr, hs, ← sub_mul, abs_mul, abs_of_pos hplace]
  have hone : |n - m| ≤ 1 := by
    have hle : |(n : ℚ) - m| * lastPlace count q ≤ 1 * lastPlace count q := by linarith
    exact_mod_cast le_of_mul_le_mul_right hle hplace
  by_cases hnm : n = m
  · rw [hr, hs, hnm]
  · -- Neighbours are a whole place apart, so each is half of one away, and only one is even.
    have habs : |n - m| = 1 := by
      have := abs_pos.mpr (sub_ne_zero.mpr hnm)
      omega
    have habs' : |(n : ℚ) - m| = 1 := by exact_mod_cast habs
    rw [habs', one_mul] at hmul
    have hn := heven (by linarith)
    have hm := heven' (by linarith)
    rcases abs_eq_abs.mp (habs.trans abs_one.symm) with hsub | hsub
    · rw [Int.even_iff] at hn hm
      omega
    · rw [Int.even_iff] at hn hm
      omega

/-- A multiple of the last place is not moved. -/
theorem isSignificantRounding_of_mul (m : ℤ) (h : q = m * lastPlace count q) :
    IsSignificantRounding count q q := by
  have hplace := lastPlace_pos count q
  refine ⟨m, h, ?_, fun hhalf => ?_⟩
  · rw [sub_self, abs_zero]
    linarith
  · rw [sub_self, abs_zero] at hhalf
    linarith

/-- A whole number of no more than `count` digits is not moved. -/
theorem isSignificantRounding_natCast (h : n < 10 ^ count) :
    IsSignificantRounding count n n := by
  rcases Nat.eq_zero_or_pos n with rfl | hn
  · exact isSignificantRounding_of_mul 0 (by simp)
  have hpos : (0 : ℚ) < n := by exact_mod_cast hn
  have hlt : Int.log 10 (n : ℚ) < count := by
    rw [← Int.lt_zpow_iff_log_lt (by decide) hpos, zpow_natCast]
    exact_mod_cast h
  obtain ⟨k, hk⟩ : ∃ k : Nat, Int.log 10 |(n : ℚ)| + 1 - count = -(k : Int) := by
    rw [abs_of_pos hpos]
    exact ⟨(count - 1 - Int.log 10 (n : ℚ)).toNat, by omega⟩
  refine isSignificantRounding_of_mul (n * 10 ^ k : Nat) ?_
  rw [lastPlace, hk, zpow_neg, zpow_natCast]
  push_cast
  rw [mul_inv_cancel_right₀ (by positivity)]

theorem isSignificantRounding_toRat_iff {negative : Bool} (hle : rank ≤ topRank) :
    IsSignificantRounding count (toRat (.number negative rank hle)) r ↔
      IsSignificantRounding count (rankValue rank) (if negative then -r else r) := by
  rw [toRat_number]
  cases negative with
  | false => exact Iff.rfl
  | true =>
    refine ⟨fun h => ?_, fun h => ?_⟩
    · have hneg := h.neg
      rwa [if_pos rfl, neg_neg] at hneg
    · have hneg := h.neg
      rwa [if_pos rfl, neg_neg] at hneg

/-- The first digit of a number is in the place of the power of ten that is not above it. -/
theorem log_eq_of_bounds (hle : (10 : ℚ) ^ e ≤ q) (hlt : q < 10 ^ (e + 1)) : Int.log 10 q = e := by
  have hpos : 0 < q := lt_of_lt_of_le (ten_zpow_pos e) hle
  have hle' := (Int.zpow_le_iff_le_log (b := 10) (by decide) hpos).mp hle
  have hlt' := (Int.lt_zpow_iff_log_lt (b := 10) (by decide) hpos).mp hlt
  omega

/-- The digits and the place of the last one tell the place of the first one. -/
theorem log_digits (hle : 10 ^ (count - 1) ≤ n) (hlt : n < 10 ^ count) (hcount : 0 < count) :
    Int.log 10 (n * 10 ^ (e - (count - 1)) : ℚ) = e := by
  have hpos := ten_zpow_pos (e - (count - 1))
  have hpow : ∀ (k : Nat) (e' : Int), (k : Int) + (e - (count - 1)) = e' →
      (10 : ℚ) ^ e' = (10 ^ k : Nat) * 10 ^ (e - (count - 1)) := by
    intro k e' he
    rw [← he, zpow_add₀ (by norm_num), zpow_natCast, Nat.cast_pow, Nat.cast_ofNat]
  apply log_eq_of_bounds
  · rw [hpow (count - 1) e (by omega)]
    exact mul_le_mul_of_nonneg_right (by exact_mod_cast hle) hpos.le
  · rw [hpow count (e + 1) (by omega)]
    exact mul_lt_mul_of_pos_right (by exact_mod_cast hlt) hpos

/-! ### Rounding at a place -/

theorem rankValue_bounds (hrank : 0 < rank) :
    10 ^ leadingExponent rank ≤ rankValue rank ∧
      rankValue rank < 10 ^ (leadingExponent rank + 1) := by
  have hpos : (0 : ℚ) < unitsPerOne := by exact_mod_cast unitsPerOne_pos
  rw [rankValue, le_div_iff₀ hpos, div_lt_iff₀ hpos]
  exact leadingExponent_spec hrank

theorem rankValue_pos (hrank : 0 < rank) : 0 < rankValue rank :=
  lt_of_lt_of_le (ten_zpow_pos _) (rankValue_bounds hrank).1

theorem lastPlace_rankValue (hrank : 0 < rank) (count : Nat) :
    lastPlace count (rankValue rank) = 10 ^ (leadingExponent rank - (count - 1)) := by
  obtain ⟨hle, hlt⟩ := rankValue_bounds hrank
  have hplace : leadingExponent rank + 1 - count = leadingExponent rank - (count - 1) := by omega
  rw [lastPlace, abs_of_pos (rankValue_pos hrank), log_eq_of_bounds hle hlt, hplace]

/-- A value rounded in the last of the places that `count` digits take. -/
theorem roundedAt_isSignificantRounding (hrank : 0 < rank) (count : Nat) :
    IsSignificantRounding count (rankValue rank)
      (roundedAt (count - 1 - leadingExponent rank) rank *
        10 ^ (leadingExponent rank - (count - 1))) := by
  obtain ⟨hle, htie⟩ := abs_roundedAt_sub (count - 1 - leadingExponent rank) rank
  have hplace := ten_zpow_pos (leadingExponent rank - (count - 1))
  have hinv : (10 : ℚ) ^ ((count : Int) - 1 - leadingExponent rank) =
      (10 ^ (leadingExponent rank - (count - 1)))⁻¹ := by
    rw [← zpow_neg, neg_sub]
  rw [hinv] at hle htie
  refine ⟨roundedAt (count - 1 - leadingExponent rank) rank, ?_⟩
  rw [lastPlace_rankValue hrank]
  generalize roundedAt (count - 1 - leadingExponent rank) rank = m at hle htie ⊢
  generalize (10 : ℚ) ^ (leadingExponent rank - (count - 1)) = t at hplace hle htie ⊢
  have hdist : |m * t - rankValue rank| = |m - rankValue rank * t⁻¹| * t := by
    rw [← abs_of_pos hplace, ← abs_mul, abs_of_pos hplace, sub_mul,
      inv_mul_cancel_right₀ hplace.ne']
  rw [hdist]
  refine ⟨rfl, ?_, fun hhalf => ?_⟩
  · calc |m - rankValue rank * t⁻¹| * t ≤ 1 / 2 * t := mul_le_mul_of_nonneg_right hle hplace.le
      _ = t / 2 := by ring
  · rw [Int.even_coe_nat, Nat.even_iff]
    apply htie
    apply mul_right_cancel₀ hplace.ne'
    rw [hhalf]
    ring

/-! ### The digits -/

theorem roundedAt_bounds (hrank : 0 < rank) (hcount : 0 < count) :
    10 ^ (count - 1) ≤ roundedAt (count - 1 - leadingExponent rank) rank ∧
      roundedAt (count - 1 - leadingExponent rank) rank ≤ 10 ^ count := by
  obtain ⟨hge, hlt⟩ := lowerAt_bounds hrank hcount rfl
  have hle := lowerAt_le_roundedAt (count - 1 - leadingExponent rank) rank
  have hsucc := roundedAt_le_succ_lowerAt (count - 1 - leadingExponent rank) rank
  exact ⟨Nat.le_trans hge hle, by omega⟩

/-- Either the value rounded in the last place has as many digits as are asked for, or it has gone
over a power of ten and is that power. -/
theorem significant_cases (hrank : 0 < rank) (hcount : 0 < count)
    (h : significant count rank = (n, e)) :
    (n < 10 ^ count ∧ e = leadingExponent rank ∧
        roundedAt (count - 1 - leadingExponent rank) rank = n) ∨
      (n = 10 ^ (count - 1) ∧ e = leadingExponent rank + 1 ∧
        roundedAt (count - 1 - leadingExponent rank) rank = 10 * n) := by
  have hle := (roundedAt_bounds hrank hcount).2
  have hpow : 10 ^ count = 10 * 10 ^ (count - 1) := by
    rw [← Nat.pow_succ', Nat.succ_eq_add_one, Nat.sub_add_cancel hcount]
  simp only [significant, Nat.pow_eq] at h
  generalize roundedAt (count - 1 - leadingExponent rank) rank = m at h hle ⊢
  split at h
  case isTrue hlt =>
    obtain ⟨hn, he⟩ := Prod.mk.inj h
    exact .inl ⟨by omega, he.symm, hn⟩
  case isFalse hge =>
    obtain ⟨hn, he⟩ := Prod.mk.inj h
    exact .inr ⟨by omega, he.symm, by omega⟩

theorem significant_bounds (hrank : 0 < rank) (hcount : 0 < count)
    (h : significant count rank = (n, e)) : 10 ^ (count - 1) ≤ n ∧ n < 10 ^ count := by
  have hge := (roundedAt_bounds hrank hcount).1
  rcases significant_cases hrank hcount h with ⟨hlt, -, hn⟩ | ⟨hn, -, -⟩
  · exact ⟨hn ▸ hge, hlt⟩
  · rw [hn]
    exact ⟨Nat.le_refl _, Nat.pow_lt_pow_right (by decide) (by omega)⟩

/-- The digits and the exponent are those of the value rounded to so many digits. -/
theorem significant_isRounding (hrank : 0 < rank) (hcount : 0 < count)
    (h : significant count rank = (n, e)) :
    IsSignificantRounding count (rankValue rank) (n * 10 ^ (e - (count - 1))) := by
  have hrounding := roundedAt_isSignificantRounding hrank count
  rcases significant_cases hrank hcount h with ⟨-, he, hn⟩ | ⟨-, he, hn⟩
  · rw [he, ← hn]
    exact hrounding
  · have hvalue : ((10 * n : Nat) : ℚ) * 10 ^ (leadingExponent rank - (count - 1)) =
        n * 10 ^ (leadingExponent rank + 1 - (count - 1)) := by
      rw [add_sub_right_comm, zpow_add₀ (by norm_num), zpow_one]
      push_cast
      ring
    rw [hn, hvalue, ← he] at hrounding
    exact hrounding

/-- To round the value itself in the place of the last digit gives the same digits. -/
theorem roundedAt_significant (hrank : 0 < rank) (hcount : 0 < count)
    (h : significant count rank = (n, e)) : roundedAt (count - 1 - e) rank = n := by
  rcases significant_cases hrank hcount h with ⟨-, he, hn⟩ | ⟨-, he, hn⟩
  · rw [he]
    exact hn
  · -- One place before the last the value is a twentieth away from `n` at most.
    obtain ⟨hlow, hhigh⟩ := abs_le.mp (abs_roundedAt_sub (count - 1 - leadingExponent rank) rank).1
    obtain ⟨hlow', hhigh'⟩ :=
      abs_le.mp (abs_roundedAt_sub (count - 1 - (leadingExponent rank + 1)) rank).1
    have hplace : (10 : ℚ) ^ ((count : Int) - 1 - leadingExponent rank) =
        10 ^ ((count : Int) - 1 - (leadingExponent rank + 1)) * 10 := by
      rw [← zpow_add_one₀ (by norm_num), sub_add_eq_sub_sub, sub_add_cancel]
    rw [he]
    rw [hn, hplace] at hlow hhigh
    push_cast at hlow hhigh
    generalize (10 : ℚ) ^ ((count : Int) - 1 - (leadingExponent rank + 1)) = t at *
    generalize roundedAt (count - 1 - (leadingExponent rank + 1)) rank = m at *
    have hle : (20 * m : ℚ) ≤ 20 * n + 11 := by linarith
    have hge : (20 * n : ℚ) ≤ 20 * m + 11 := by linarith
    have hle' : 20 * m ≤ 20 * n + 11 := by exact_mod_cast hle
    have hge' : 20 * n ≤ 20 * m + 11 := by exact_mod_cast hge
    omega

end Binary64
end EvalDiff
