import EvalDiff.Proofs.Binary64.Overflow
import EvalDiff.Proofs.Binary64.Significant

/-!
# Significant digits that are read back

Up to fourteen significant digits of a normal double are kept when they are read, in the sense that
the double they are read as has the same digits: `significant_of_rounds`.  Reading moves a decimal
by less than a twentieth of the place of its last digit.  Half a place would be too much to keep the
digits, for a power of ten can be read as a double below it, whose digits are counted from the next
place on and have to carry back.
-/

namespace EvalDiff
namespace Binary64

variable {count rank other n : Nat} {e : Int} {q : ℚ}

/-! ### How far reading moves a decimal -/

/-- From the last half of the doubles below the normal ones on, what is rounded is moved by at most
one part in 2^52. -/
theorem Rounds.abs_units_sub_le (h : Rounds rank q) (hrank : 2 ^ 51 ≤ rank) :
    |(units rank : ℚ) - q| ≤ units rank / 2 ^ 52 := by
  obtain ⟨k, m, hrank', hm, hk⟩ := exists_significand rank
  have hg : 2 ^ 51 ≤ m := by
    rcases hk with rfl | hk
    · omega
    · exact Nat.le_trans (by decide) hk
  have hsucc := units_succ_le hrank' hm hk (by decide) hg
  have hgap := two_mul_units_le (Nat.lt_of_lt_of_le (by decide) hrank)
  rw [abs_le]
  norm_num at hsucc
  constructor <;> linarith [h.above, h.below]

/-! ### The digits of a double near a decimal -/

/-- Powers of ten around the place of the last digit. -/
theorem ten_zpow_mul_place (count : Nat) (e k : Int) :
    (10 : ℚ) ^ (e + k) * 10 ^ ((count : Int) - 1 - e) = 10 ^ ((count : Int) - 1) * 10 ^ k := by
  rw [← zpow_add₀ (by norm_num), ← zpow_add₀ (by norm_num)]
  congr 1
  omega

theorem ten_zpow_sub_one (hcount : 0 < count) :
    (10 : ℚ) ^ ((count : Int) - 1) = (10 ^ (count - 1) : Nat) := by
  rw [Nat.cast_pow, Nat.cast_ofNat, ← zpow_natCast]
  congr 1
  omega

theorem eq_of_abs_sub_lt_one {a b : Nat} (h : |(a : ℚ) - b| < 1) : a = b := by
  have hint : |(a : ℤ) - b| < 1 := by exact_mod_cast h
  have hzero := Int.abs_lt_one_iff.mp hint
  omega

/-- The first digit is in the place that the decimal has it in, or in the next one below. -/
theorem leadingExponent_of_near (hcount : 0 < count) (hrank : 0 < rank)
    (hlow : 10 ^ (count - 1) ≤ n) (hhigh : n < 10 ^ count)
    (hnear : |(n : ℚ) - rankValue rank * 10 ^ ((count : Int) - 1 - e)| < 1 / 20) :
    leadingExponent rank = e ∨ leadingExponent rank = e - 1 := by
  obtain ⟨hlead, hlead'⟩ := rankValue_bounds hrank
  obtain ⟨hnear, hnear'⟩ := abs_lt.mp hnear
  have hplace := ten_zpow_pos ((count : Int) - 1 - e)
  have hone : (1 : ℚ) ≤ (10 ^ (count - 1) : Nat) := by exact_mod_cast Nat.pow_pos (by decide)
  have hlow' : ((10 ^ (count - 1) : Nat) : ℚ) ≤ n := by exact_mod_cast hlow
  have hhigh' : (n + 1 : ℚ) ≤ 10 * (10 ^ (count - 1) : Nat) := by
    rw [← Nat.sub_add_cancel hcount, Nat.pow_succ'] at hhigh
    exact_mod_cast hhigh
  have hle : leadingExponent rank ≤ e := by
    refine Int.not_lt.mp fun hlt => ?_
    have hpow : (10 : ℚ) ^ (e + 1) ≤ rankValue rank :=
      (zpow_le_zpow_right₀ (by norm_num) hlt).trans hlead
    have hmul := mul_le_mul_of_nonneg_right hpow hplace.le
    rw [ten_zpow_mul_place, ten_zpow_sub_one hcount, zpow_one] at hmul
    linarith
  have hge : e - 1 ≤ leadingExponent rank := by
    refine Int.not_lt.mp fun hlt => ?_
    have hpow : rankValue rank ≤ 10 ^ (e + -1) :=
      hlead'.le.trans (zpow_le_zpow_right₀ (by norm_num) (by omega))
    have hmul := mul_le_mul_of_nonneg_right hpow hplace.le
    rw [ten_zpow_mul_place, ten_zpow_sub_one hcount, zpow_neg_one] at hmul
    linarith
  omega

/-- A decimal near a double that begins in the next place below is a power of ten. -/
theorem eq_power_of_near (hcount : 0 < count) (hrank : 0 < rank) (hlow : 10 ^ (count - 1) ≤ n)
    (hnear : |(n : ℚ) - rankValue rank * 10 ^ ((count : Int) - 1 - e)| < 1 / 20)
    (hlead : leadingExponent rank = e - 1) : n = 10 ^ (count - 1) := by
  have hlast := (rankValue_bounds hrank).2
  have hplace := ten_zpow_mul_place count e 0
  rw [add_zero, zpow_zero, mul_one, ten_zpow_sub_one hcount] at hplace
  rw [hlead, Int.sub_add_cancel] at hlast
  have hmul := mul_lt_mul_of_pos_right hlast (ten_zpow_pos ((count : Int) - 1 - e))
  rw [hplace] at hmul
  have hlow' : ((10 ^ (count - 1) : Nat) : ℚ) ≤ n := by exact_mod_cast hlow
  rw [abs_lt] at hnear
  apply eq_of_abs_sub_lt_one
  rw [abs_lt]
  constructor <;> linarith

/-- A double that is nearer to a decimal than a twentieth of the place of its last digit has the
digits of that decimal. -/
theorem significant_eq_of_near (hcount : 0 < count) (hrank : 0 < rank)
    (hlow : 10 ^ (count - 1) ≤ n) (hhigh : n < 10 ^ count)
    (hnear : |(n : ℚ) - rankValue rank * 10 ^ ((count : Int) - 1 - e)| < 1 / 20) :
    significant count rank = (n, e) := by
  have hlead := leadingExponent_of_near hcount hrank hlow hhigh hnear
  have hrounded := (abs_roundedAt_sub (count - 1 - leadingExponent rank) rank).1
  have hpow : 10 ^ count = 10 * 10 ^ (count - 1) := by
    rw [← Nat.pow_succ', Nat.succ_eq_add_one, Nat.sub_add_cancel hcount]
  simp only [significant, Nat.pow_eq]
  generalize roundedAt (count - 1 - leadingExponent rank) rank = m at hrounded ⊢
  rw [abs_le] at hrounded
  rcases hlead with hlead | hlead
  · rw [hlead] at hrounded ⊢
    have hdigits : m = n := by
      apply eq_of_abs_sub_lt_one
      rw [abs_lt] at hnear ⊢
      constructor <;> linarith
    rw [hdigits, if_pos hhigh]
  · -- Below a power of ten: one more place is rounded there, and the rounding carries.
    have hnext : (10 : ℚ) ^ ((count : Int) - 1 - (e - 1)) = 10 ^ ((count : Int) - 1 - e) * 10 := by
      have hexponent : (count : Int) - 1 - (e - 1) = count - 1 - e + 1 := by omega
      rw [hexponent, zpow_add_one₀ (by norm_num)]
    have hpower := eq_power_of_near hcount hrank hlow hnear hlead
    rw [hlead, hnext] at hrounded
    have hdigits : m = 10 * n := by
      apply eq_of_abs_sub_lt_one
      rw [abs_lt] at hnear ⊢
      push_cast
      constructor <;> linarith
    rw [hlead, hdigits, if_neg (by omega), Nat.mul_div_cancel_left n (by decide),
      Int.sub_add_cancel]

/-! ### Digits that are read -/

theorem ten_zpow_place_mul (count : Nat) (e : Int) :
    (10 : ℚ) ^ (e - (count - 1)) * 10 ^ ((count : Int) - 1 - e) = 1 := by
  have hinverse : (count : Int) - 1 - e = -(e - (count - 1)) := by omega
  rw [hinverse, zpow_neg, mul_inv_cancel₀ (ten_zpow_pos _).ne']

/-- The decimal of a double's digits is off by half a place at most. -/
theorem abs_decimal_sub_le (hcount : 0 < count) (hrank : 0 < rank)
    (h : significant count rank = (n, e)) :
    |(n * 10 ^ (e - (count - 1)) - rankValue rank : ℚ)| ≤ 10 ^ (e - (count - 1)) / 2 := by
  have hdist := (abs_roundedAt_sub (count - 1 - e) rank).1
  rw [roundedAt_significant hrank hcount h] at hdist
  have hinverse := ten_zpow_place_mul count e
  have hpos := ten_zpow_pos (e - (count - 1))
  generalize (10 : ℚ) ^ (e - (count - 1)) = z at hinverse hpos ⊢
  generalize (10 : ℚ) ^ ((count : Int) - 1 - e) = t at hdist hinverse
  have hscale : n * z - rankValue rank = (n - rankValue rank * t) * z := by
    linear_combination rankValue rank * hinverse
  rw [hscale, abs_mul, abs_of_pos hpos]
  linarith [mul_le_mul_of_nonneg_right hdist hpos.le]

theorem rankValue_le_two_mul (hcount : 0 < count) (hrank : 0 < rank)
    (h : significant count rank = (n, e)) :
    rankValue rank ≤ 2 * (n * 10 ^ (e - (count - 1))) := by
  obtain ⟨hlow, -⟩ := significant_bounds hrank hcount h
  have hone : (1 : ℚ) ≤ n := by exact_mod_cast Nat.le_trans (Nat.pow_pos (by decide)) hlow
  have hdist := (abs_le.mp (abs_decimal_sub_le hcount hrank h)).1
  have hpos := ten_zpow_pos (e - (count - 1))
  have hplace := mul_le_mul_of_nonneg_right hone hpos.le
  linarith

/-- A decimal that is read as a double is a twentieth of the place of its last digit away from it
at most. -/
theorem abs_sub_lt_of_rounds (hmax : count ≤ 14) (hhigh : n < 10 ^ count) (hother : 2 ^ 51 ≤ other)
    (hread : Rounds other (n * 10 ^ (e - (count - 1)) * unitsPerOne)) :
    |(n : ℚ) - rankValue other * 10 ^ ((count : Int) - 1 - e)| < 1 / 20 := by
  have hone : (0 : ℚ) < unitsPerOne := by exact_mod_cast unitsPerOne_pos
  have hplace := ten_zpow_pos ((count : Int) - 1 - e)
  have hlt : (n : ℚ) < 100000000000000 := by
    exact_mod_cast Nat.lt_of_lt_of_le hhigh (Nat.pow_le_pow_right (by decide) hmax)
  have hdist := hread.abs_units_sub_le hother
  have hinverse := ten_zpow_place_mul count e
  generalize (10 : ℚ) ^ (e - (count - 1)) = z at hdist hinverse
  generalize (10 : ℚ) ^ ((count : Int) - 1 - e) = t at hplace hinverse ⊢
  -- The distance in units of the place of the last digit.
  have hscale : |rankValue other * t - n| ≤ rankValue other * t / 4503599627370496 := by
    have hleft : rankValue other * t - n =
        (units other - n * z * unitsPerOne) * (t / unitsPerOne) := by
      rw [rankValue]
      field_simp
      linear_combination (n * unitsPerOne : ℚ) * hinverse
    rw [hleft, abs_mul, abs_of_pos (div_pos hplace hone)]
    calc |(units other : ℚ) - n * z * unitsPerOne| * (t / unitsPerOne) ≤
          units other / 2 ^ 52 * (t / unitsPerOne) :=
          mul_le_mul_of_nonneg_right hdist (div_pos hplace hone).le
      _ = rankValue other * t / 4503599627370496 := by
          have hpow : (2 : ℚ) ^ 52 = 4503599627370496 := by norm_num
          rw [rankValue, hpow]
          ring
  rw [abs_le] at hscale
  rw [abs_lt]
  constructor <;> linarith

/-- Up to fourteen digits of a normal double are the digits of the double that they are read as. -/
theorem significant_of_rounds (hcount : 0 < count) (hmax : count ≤ 14) (hrank : binade ≤ rank)
    (h : significant count rank = (n, e))
    (hread : Rounds other (n * 10 ^ (e - (count - 1)) * unitsPerOne)) :
    0 < other ∧ significant count other = (n, e) := by
  have hpos : 0 < rank := Nat.lt_of_lt_of_le (by decide) hrank
  have hone : (0 : ℚ) < unitsPerOne := by exact_mod_cast unitsPerOne_pos
  obtain ⟨hlow, hhigh⟩ := significant_bounds hpos hcount h
  have hother : 2 ^ 51 ≤ other := by
    apply hread.le_rank
    have hunits : units (2 ^ 51) = 2 ^ 51 := by decide
    have hdouble : (binade : ℚ) = 2 * (2 ^ 51 : Nat) := by norm_num [binade]
    have hbinade := units_le_units hrank
    have hhalf := mul_le_mul_of_nonneg_right (rankValue_le_two_mul hcount hpos h) hone.le
    rw [rankValue, div_mul_cancel₀ _ hone.ne'] at hhalf
    rw [units_binade, hdouble] at hbinade
    rw [hunits]
    linarith
  have hother' : 0 < other := Nat.lt_of_lt_of_le (by decide) hother
  exact ⟨hother', significant_eq_of_near hcount hother' hlow hhigh
    (abs_sub_lt_of_rounds hmax hhigh hother hread)⟩

/-! ### Twelve digits of the largest doubles -/

/-- The bound of the finite doubles lies between two decimals of twelve digits, in the upper half of
the gap. -/
theorem overflowBound_bounds :
    179769313486 * 10 ^ (297 : Int) < overflowBound ∧
      overflowBound < (179769313486 + 1 / 2) * 10 ^ (297 : Int) := by
  obtain ⟨m, hm⟩ : ∃ m, m = 1024 := ⟨_, rfl⟩
  obtain ⟨k, hk⟩ : ∃ k, k = 970 := ⟨_, rfl⟩
  obtain ⟨j, hj⟩ : ∃ j, j = 297 := ⟨_, rfl⟩
  have hnat : 179769313486 * 10 ^ j + 2 ^ k < 2 ^ m ∧
      2 * 2 ^ m < (2 * 179769313486 + 1) * 10 ^ j + 2 * 2 ^ k := by
    subst hm hk hj
    decide +kernel
  have hlow : (179769313486 * 10 ^ j + 2 ^ k : ℚ) < 2 ^ m := by exact_mod_cast hnat.1
  have hhigh : (2 * 2 ^ m : ℚ) < (2 * 179769313486 + 1) * 10 ^ j + 2 * 2 ^ k := by
    exact_mod_cast hnat.2
  have hplace : (10 : ℚ) ^ (297 : Int) = 10 ^ j := by rw [hj, ← zpow_natCast, Nat.cast_ofNat]
  rw [hplace, overflowBound, ← hm, ← hk]
  constructor <;> linarith

theorem rankValue_lt_overflowBound (htop : rank < topRank) : rankValue rank < overflowBound := by
  have hone : (0 : ℚ) < unitsPerOne := by exact_mod_cast unitsPerOne_pos
  have hself := units_le_units (Nat.le_pred_of_lt htop)
  have hnext := units_lt_units (by decide : topRank - 1 < topRank)
  rw [Nat.pred_eq_sub_one] at hself
  rw [rankValue, div_lt_iff₀ hone]
  linarith [two_mul_overflowBound]

/-- Twelve digits of a finite double do not make a decimal that is read as infinity. -/
theorem significant_lt_overflowBound (hrank : 0 < rank) (htop : rank < topRank)
    (h : significant 12 rank = (n, e)) : (n * 10 ^ (e - 11) : ℚ) < overflowBound := by
  obtain ⟨hlow, hhigh⟩ := significant_bounds hrank (by decide) h
  have hdist : n * 10 ^ (e - 11) - rankValue rank ≤ 10 ^ (e - 11) / 2 :=
    (abs_le.mp (abs_decimal_sub_le (by decide) hrank h)).2
  have hvalue := rankValue_lt_overflowBound htop
  obtain ⟨hbound, hbound'⟩ := overflowBound_bounds
  have hpos := ten_zpow_pos (e - 11)
  have hlow' := mul_le_mul_of_nonneg_right (Nat.cast_le (α := ℚ).mpr hlow) hpos.le
  have hhigh' := mul_le_mul_of_nonneg_right (Nat.cast_le (α := ℚ).mpr hhigh.le) hpos.le
  norm_num at hlow' hhigh'
  obtain ⟨w, hw⟩ : ∃ w, w = (10 : ℚ) ^ (297 : Int) := ⟨_, rfl⟩
  have hwpos : 0 < w := hw ▸ ten_zpow_pos 297
  rw [← hw] at hbound hbound'
  rcases Int.lt_trichotomy e 308 with hlt | rfl | hgt
  · have hplace : 10 ^ (e - 11) * 10 ≤ w := by
      rw [hw, ← zpow_add_one₀ (by norm_num)]
      exact zpow_le_zpow_right₀ (by norm_num) (by omega)
    generalize (10 : ℚ) ^ (e - 11) = z at *
    linarith only [hhigh', hplace, hbound, hwpos]
  · have hplace : (10 : ℚ) ^ ((308 : Int) - 11) = w := hw.symm
    rw [hplace] at hdist ⊢
    have hlt : (n : ℚ) < 179769313487 := by
      refine lt_of_mul_lt_mul_right ?_ hwpos.le
      linarith
    have hle : (n : ℚ) ≤ 179769313486 := by
      exact_mod_cast Nat.le_of_lt_succ (by exact_mod_cast hlt)
    linarith [mul_le_mul_of_nonneg_right hle hwpos.le]
  · have hplace : w * 10 ≤ 10 ^ (e - 11) := by
      rw [hw, ← zpow_add_one₀ (by norm_num)]
      exact zpow_le_zpow_right₀ (by norm_num) (by omega)
    generalize (10 : ℚ) ^ (e - 11) = z at *
    linarith only [hlow', hdist, hvalue, hplace, hbound', hwpos]

end Binary64
end EvalDiff
