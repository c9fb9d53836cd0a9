import EvalDiff.Proofs.Binary64.Nearness

/-!
# Overflow

Rounding ends at infinity exactly from `overflowBound` on, which is half way from the largest double
to the power of two after it.  So finite doubles have a finite quotient up to there, and one that is
finite stays so when one is taken away.
-/

namespace EvalDiff
namespace Binary64

variable {x y : Binary64} {rank num den : Nat} {q : ℚ}

/-- The least number that is rounded to infinity. -/
def overflowBound : ℚ := 2 ^ 1024 - 2 ^ 970

theorem two_mul_overflowBound :
    2 * (overflowBound * unitsPerOne) = units (topRank - 1) + units topRank := by
  -- The exponents are kept as variables, so that the powers are only evaluated in the kernel.
  obtain ⟨m, hm⟩ : ∃ m, m = 1024 := ⟨_, rfl⟩
  obtain ⟨k, hk⟩ : ∃ k, k = 970 := ⟨_, rfl⟩
  have hnat : units (topRank - 1) + units topRank + 2 * (2 ^ k * unitsPerOne) =
      2 * (2 ^ m * unitsPerOne) := by
    subst hm hk
    decide +kernel
  have hcast : (units (topRank - 1) + units topRank + 2 * (2 ^ k * unitsPerOne) : ℚ) =
      2 * (2 ^ m * unitsPerOne) := by
    exact_mod_cast hnat
  rw [overflowBound, ← hm, ← hk]
  linear_combination -hcast

/-- The largest double is odd, so the bound itself is rounded to infinity. -/
theorem Rounds.topRank_le_iff (h : Rounds rank q) :
    topRank ≤ rank ↔ overflowBound * unitsPerOne ≤ q := by
  have hbound := two_mul_overflowBound
  constructor
  · intro hle
    have hprev := units_le_units (Nat.sub_le_sub_right hle 1)
    have hself := units_le_units hle
    linarith [h.below]
  · intro hle
    refine Nat.le_of_not_lt fun hlt => ?_
    have hself := units_le_units (Nat.le_pred_of_lt hlt)
    have hnext := units_le_units (Nat.succ_le_of_lt hlt)
    rw [Nat.pred_eq_sub_one] at hself
    rw [Nat.succ_eq_add_one] at hnext
    have heven := h.even_above (by linarith [h.above])
    have hlast : rank = topRank - 1 := by
      refine Nat.le_antisymm (Nat.le_pred_of_lt hlt) (Nat.le_of_not_lt fun hgt => ?_)
      have := units_lt_units hgt
      linarith [h.above]
    rw [hlast] at heven
    exact absurd heven (by decide)

theorem isFinite_ofRank_iff (negative : Bool) (rank : Nat) :
    (ofRank negative rank).isFinite = true ↔ rank < topRank := by
  rw [ofRank, isFinite, decide_eq_true_iff]
  omega

theorem isFinite_ofUnits_iff (negative : Bool) (num : Nat) (hden : 0 < den) :
    (ofUnits negative num den).isFinite = true ↔
      (num / den : ℚ) < overflowBound * unitsPerOne := by
  rw [ofUnits, isFinite_ofRank_iff, ← not_le, ← not_le,
    (rounds_nearestRank num hden).topRank_le_iff]

/-- One is small beside the distance from the largest double to the bound. -/
theorem isFinite_sub_one (x : Binary64) : (x - one).isFinite = x.isFinite := by
  cases x with
  | nan => rfl
  | number negative rank h =>
    rcases Nat.eq_or_lt_of_le h with rfl | hlt
    · show (infinity negative - one).isFinite = (infinity negative).isFinite
      rw [infinity_sub_one]
    · have hfinite : (number negative rank h).isFinite = true := decide_eq_true hlt
      rw [sub_one_of_lt hlt, hfinite]
      simp only
      split
      · decide
      · have hmargin : units (topRank - 1) + 2 * unitsPerOne < units topRank := by decide +kernel
        have hself := units_strictMono.monotone (Nat.le_pred_of_lt hlt)
        rw [Nat.pred_eq_sub_one] at hself
        have hsum : 2 * (signedUnits negative rank - unitsPerOne).natAbs <
            units (topRank - 1) + units topRank := by
          cases negative <;> simp only [signedUnits, if_true, Bool.false_eq_true, if_false] <;>
            omega
        rw [isFinite_ofUnits_iff _ _ Nat.one_pos, Nat.cast_one, div_one]
        have hsum' : (2 * (signedUnits negative rank - unitsPerOne).natAbs : ℚ) <
            units (topRank - 1) + units topRank := by
          exact_mod_cast hsum
        linarith [two_mul_overflowBound]

theorem abs_toRat_number (negative : Bool) (hle : rank ≤ topRank) :
    |toRat (.number negative rank hle)| = rankValue rank := by
  have hnonneg : 0 ≤ rankValue rank := div_nonneg (Nat.cast_nonneg _) (Nat.cast_nonneg _)
  rw [toRat_number]
  split
  · rw [abs_neg, abs_of_nonneg hnonneg]
  · exact abs_of_nonneg hnonneg

/-- The quotient of two finite doubles overflows if the dividend has a magnitude that many times the
divisor's. -/
theorem isFinite_div_iff (hx : x.isFinite = true) (hy : y.isFinite = true)
    (hzero : x.isZero = false) :
    (y / x).isFinite = true ↔ |y.toRat| < overflowBound * |x.toRat| := by
  cases x with
  | nan => cases hx
  | number s a ha =>
    cases y with
    | nan => cases hy
    | number t b hb =>
      have ha' : a ≠ topRank := Nat.ne_of_lt (of_decide_eq_true hx)
      have hb' : b ≠ topRank := Nat.ne_of_lt (of_decide_eq_true hy)
      have hne : a ≠ 0 := beq_eq_false_iff_ne.mp hzero
      have hunits : 0 < units a := units_pos (Nat.pos_of_ne_zero hne)
      have hpos : (0 : ℚ) < units a := by exact_mod_cast hunits
      have hone : (0 : ℚ) < unitsPerOne := by exact_mod_cast unitsPerOne_pos
      show (div _ _).isFinite = true ↔ _
      simp only [div, if_neg ha', if_neg hb', if_neg hne]
      rw [isFinite_ofUnits_iff _ _ hunits, abs_toRat_number, abs_toRat_number, rankValue, rankValue,
        div_lt_iff₀ hpos, ← mul_div_assoc, div_lt_div_iff_of_pos_right hone, Nat.cast_mul,
        mul_right_comm, mul_lt_mul_iff_left₀ hone]

end Binary64
end EvalDiff
