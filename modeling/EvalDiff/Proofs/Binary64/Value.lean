import EvalDiff.Proofs.Binary64.Rounding
import Mathlib.Algebra.Order.Field.Basic
import Mathlib.Algebra.Order.Field.Rat
import Mathlib.Algebra.Order.Ring.Abs
import Mathlib.Tactic.FieldSimp
import Mathlib.Tactic.Linarith
import Mathlib.Tactic.LinearCombination
import Mathlib.Tactic.NormNum

/-!
# Doubles as rational numbers

The exact value of a finite double, and what it is for a double to be the rounding of a
rational number.  A result of `ofUnits` is the rounding of the quotient it is made from, and so
are the quotients of finite doubles.
-/

namespace EvalDiff
namespace Binary64

open Decimal

/-- The exact value of a finite double. -/
def toRat : Binary64 → ℚ
  | .nan => 0
  | .number negative rank _ => signedUnits negative rank / unitsPerOne

/-- A finite double is the rounding of a number if no other is nearer to it, and of two that are
equally near the one whose last bit is zero. -/
structure IsRoundingOf (x : Binary64) (q : ℚ) : Prop where
  finite : x.isFinite = true
  nearest : ∀ y : Binary64, y.isFinite = true → |x.toRat - q| ≤ |y.toRat - q|
  even : ∀ y : Binary64, y.isFinite = true → y.toRat ≠ x.toRat →
    |y.toRat - q| = |x.toRat - q| → x.toBits % 2 = 0

/-- A sign as a factor. -/
def signFactor (negative : Bool) : ℤ := if negative then -1 else 1

theorem signedUnits_eq (negative : Bool) (rank : Nat) :
    signedUnits negative rank = signFactor negative * units rank := by
  cases negative <;> simp [signedUnits, signFactor]

theorem unitsPerOne_pos : 0 < unitsPerOne := by
  unfold unitsPerOne
  generalize 1074 = e
  exact Nat.two_pow_pos e

/-- The exact value of a rank. -/
def rankValue (rank : Nat) : ℚ := units rank / unitsPerOne

theorem toRat_number (negative : Bool) {rank : Nat} (hle : rank ≤ topRank) :
    toRat (.number negative rank hle) = if negative then -rankValue rank else rankValue rank := by
  rw [toRat, signedUnits_eq]
  cases negative with
  | false =>
    have hsign : signFactor false = 1 := rfl
    rw [hsign, one_mul, Int.cast_natCast, if_neg Bool.false_ne_true, rankValue]
  | true =>
    have hsign : signFactor true = -1 := rfl
    rw [hsign, neg_one_mul, Int.cast_neg, Int.cast_natCast, if_pos rfl, rankValue, neg_div]

/-- Distances of doubles to a quotient of units, without denominators. -/
theorem abs_toRat_sub {s t : Bool} {rank num den : Nat} (hle : rank ≤ topRank) (h : 0 < den) :
    |toRat (.number t rank hle) - signFactor s * (num / (den * unitsPerOne) : ℚ)| =
      ((signFactor s * signFactor t * (units rank * den : Nat) - num).natAbs : ℚ) /
        (den * unitsPerOne) := by
  have hd : (0 : ℚ) < den := by exact_mod_cast h
  have hu : (0 : ℚ) < unitsPerOne := by exact_mod_cast unitsPerOne_pos
  have hs : (signFactor s : ℚ) * signFactor s = 1 := by cases s <;> norm_num [signFactor]
  have habs : |(signFactor s : ℚ)| = 1 := by cases s <;> norm_num [signFactor]
  have hsplit : toRat (.number t rank hle) - signFactor s * (num / (den * unitsPerOne) : ℚ) =
      signFactor s * ((signFactor s * signFactor t * (units rank * den : Nat) - num : ℤ) : ℚ) /
        (den * unitsPerOne) := by
    rw [toRat, signedUnits_eq]
    push_cast
    field_simp
    linear_combination (-(signFactor t * units rank * den : ℚ)) * hs
  rw [hsplit, abs_div, abs_mul, habs, one_mul, abs_of_pos (mul_pos hd hu), Nat.cast_natAbs,
    Int.cast_abs]

theorem signFactor_mul (s t : Bool) : signFactor s * signFactor t = if s = t then 1 else -1 := by
  cases s <;> cases t <;> rfl

theorem toRat_of_units_eq_zero {negative : Bool} {rank : Nat} (hle : rank ≤ topRank)
    (h : units rank = 0) : toRat (.number negative rank hle) = 0 := by
  rw [toRat, signedUnits_eq, h, Nat.cast_zero, mul_zero, Int.cast_zero, zero_div]

theorem toBits_mod_two (negative : Bool) {rank : Nat} (hle : rank ≤ topRank) :
    (number negative rank hle).toBits % 2 = rank % 2 := by
  have h : signBit % 2 = 0 := by decide
  show ((if negative then signBit else 0) + rank) % 2 = rank % 2
  split <;> omega

/-- Rounding moves a quotient by one half at most, and by one half only to an even integer. -/
theorem abs_roundHalfEven_sub (num : Nat) {den : Nat} (h : 0 < den) :
    |(roundHalfEven num den : ℚ) - num / den| ≤ 1 / 2 ∧
      (|(roundHalfEven num den : ℚ) - num / den| = 1 / 2 → roundHalfEven num den % 2 = 0) := by
  have hden : (0 : ℚ) < den := by exact_mod_cast h
  have hle := two_mul_roundHalfEven_mul_le num h
  have hge := two_mul_le_roundHalfEven_mul num h
  have habove := even_of_tie num h (c := roundHalfEven num den)
  have hbelow := even_of_tie_below num h (c := roundHalfEven num den)
  generalize roundHalfEven num den = m at hle hge habove hbelow ⊢
  have hle' : (2 * (m * den) : ℚ) ≤ 2 * num + den := by exact_mod_cast hle
  have hge' : (2 * num : ℚ) ≤ 2 * (m * den) + den := by exact_mod_cast hge
  have hdiff : (m : ℚ) - num / den = (m * den - num) / den := by
    field_simp
  have hhalf : (1 / 2 : ℚ) = den / 2 / den := by
    field_simp
  rw [hdiff, hhalf, abs_div, abs_of_pos hden, div_le_div_iff_of_pos_right hden,
    div_left_inj' hden.ne']
  constructor
  · rw [abs_le]
    constructor <;> linarith
  · intro htie
    rcases (abs_eq (by linarith)).mp htie with htie | htie
    · apply hbelow
      have : (2 * num + den : ℚ) = 2 * m * den := by linarith
      exact_mod_cast this
    · apply habove
      have : (2 * num : ℚ) = (2 * m + 1) * den := by linarith
      exact_mod_cast this

theorem dist_le_of_nearest {rank num den : Nat} (h : Nearest rank num den) (s t : Bool)
    (other : Nat) :
    (signFactor s * signFactor s * (units rank * den : Nat) - (num : ℤ)).natAbs ≤
      (signFactor s * signFactor t * (units other * den : Nat) - (num : ℤ)).natAbs := by
  rw [signFactor_mul, signFactor_mul, if_pos rfl, one_mul]
  by_cases hst : s = t
  · rw [if_pos hst, one_mul]
    exact h.dist_le other
  · rw [if_neg hst]
    have := h.dist_le_add other
    omega

theorem even_of_nearest {rank num den : Nat} (h : Nearest rank num den) (hden : 0 < den)
    {s t : Bool} {other : Nat} (hle : rank ≤ topRank) (hle' : other ≤ topRank)
    (hne : toRat (.number t other hle') ≠ toRat (.number s rank hle))
    (heq : (signFactor s * signFactor t * (units other * den : Nat) - (num : ℤ)).natAbs =
      (signFactor s * signFactor s * (units rank * den : Nat) - (num : ℤ)).natAbs) :
    rank % 2 = 0 := by
  rw [signFactor_mul, signFactor_mul, if_pos rfl, one_mul] at heq
  by_cases hst : s = t
  · subst hst
    rw [if_pos rfl, one_mul] at heq
    refine h.even_of_dist_eq hden other ?_ heq
    rintro rfl
    exact hne rfl
  · -- Only zero can be as near as the rounding on the other side of zero.
    rw [if_neg hst] at heq
    have hzero := h.dist_le_add 0
    rw [units_zero, Nat.zero_mul] at hzero
    have hmul : units other * den = 0 := by omega
    have hunits : units other = 0 := (Nat.mul_eq_zero.mp hmul).resolve_right (by omega)
    rw [toRat_of_units_eq_zero hle' hunits] at hne
    refine h.even_of_dist_eq hden 0 ?_ ?_
    · rintro rfl
      exact hne (toRat_of_units_eq_zero hle units_zero).symm
    · rw [units_zero, Nat.zero_mul]
      omega

theorem isRoundingOf_of_nearest {rank num den : Nat} (h : Nearest rank num den)
    (hden : 0 < den) (negative : Bool) (hlt : rank < topRank) :
    IsRoundingOf (.number negative rank (Nat.le_of_lt hlt))
      (signFactor negative * (num / (den * unitsPerOne) : ℚ)) := by
  have hpos : (0 : ℚ) < den * unitsPerOne := by
    exact_mod_cast Nat.mul_pos hden unitsPerOne_pos
  refine ⟨decide_eq_true hlt, ?_, ?_⟩
  · intro y hy
    cases y with
    | nan => cases hy
    | number t other hle =>
      rw [abs_toRat_sub _ hden, abs_toRat_sub _ hden, div_le_div_iff_of_pos_right hpos,
        Nat.cast_le]
      exact dist_le_of_nearest h negative t other
  · intro y hy hne heq
    cases y with
    | nan => cases hy
    | number t other hle =>
      rw [abs_toRat_sub _ hden, abs_toRat_sub _ hden, div_left_inj' (ne_of_gt hpos),
        Nat.cast_inj] at heq
      rw [toBits_mod_two]
      exact even_of_nearest h hden _ _ hne heq

theorem ofRank_of_le (negative : Bool) {rank : Nat} (h : rank ≤ topRank) :
    ofRank negative rank = .number negative rank h := by
  simp only [ofRank, Nat.min_eq_left h]

theorem ofUnits_of_lt (negative : Bool) {num den : Nat} (h : nearestRank num den < topRank) :
    ofUnits negative num den = .number negative (nearestRank num den) (Nat.le_of_lt h) :=
  ofRank_of_le negative (Nat.le_of_lt h)

theorem ofUnits_isRoundingOf (negative : Bool) {num den : Nat} (hden : 0 < den)
    (h : nearestRank num den < topRank) :
    IsRoundingOf (ofUnits negative num den)
      (signFactor negative * (num / (den * unitsPerOne) : ℚ)) := by
  rw [ofUnits_of_lt negative h]
  exact isRoundingOf_of_nearest (nearestRank_spec num hden) hden negative h

end Binary64
end EvalDiff
