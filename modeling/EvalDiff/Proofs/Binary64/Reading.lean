import EvalDiff.Binary64.Reading
import EvalDiff.Proofs.Binary64.Naturals
import EvalDiff.Proofs.Binary64.Shortest
import EvalDiff.Proofs.Decimal.Literal

/-!
# Reading literals

A numeral of any length is read as the rounding of its exact value: `exists_rounds_ofNumeral`.  The
reader does not form the powers of ten of numbers with more than 400 places on one side of the
point, and no double is out there.  Rounding keeps the order of numbers, so reading keeps the order
of literals.
-/

namespace EvalDiff
namespace Binary64

open Decimal

variable {n m : Numeral} {rank : Nat} {token : String} {cs : List Char} {c : Char}

theorem ofRank_of_topRank_le (negative : Bool) (h : topRank ≤ rank) :
    ofRank negative rank = infinity negative := by
  simp only [infinity, ofRank, Nat.min_eq_right h, Nat.min_self]

theorem units_topRank : units topRank = 2 ^ 1024 * unitsPerOne := units_eq_two_pow (by decide)

theorem magnitude_nonneg (n : Numeral) : 0 ≤ n.magnitude :=
  mul_nonneg (Nat.cast_nonneg _) (ten_zpow_pos _).le

theorem magnitude_mul_unitsPerOne (n : Numeral) :
    n.magnitude * unitsPerOne =
      (n.coefficient * Nat.pow 10 n.scale.toNat * unitsPerOne : Nat) /
        (Nat.pow 10 (-n.scale).toNat : Nat) := by
  have hunits := decimalUnits_eq n.coefficient (-n.scale)
  rw [decimalUnits, neg_neg, Nat.mul_right_comm] at hunits
  exact hunits

/-- From 10^400 on everything is infinite. -/
theorem units_topRank_le (hcoefficient : n.coefficient ≠ 0) (hscale : 400 < n.scale) :
    (units topRank : ℚ) ≤ n.magnitude * unitsPerOne := by
  have hone : (1 : ℚ) ≤ n.coefficient := by exact_mod_cast Nat.pos_of_ne_zero hcoefficient
  have hpow : (2 : ℚ) ^ 1024 ≤ 10 ^ n.scale := by
    calc (2 : ℚ) ^ 1024 = (2 ^ 8) ^ 128 := by rw [← pow_mul]
      _ ≤ (10 ^ 3) ^ 128 := pow_le_pow_left₀ (by norm_num) (by norm_num) 128
      _ = 10 ^ (384 : Int) := by rw [← pow_mul, ← zpow_natCast]; rfl
      _ ≤ 10 ^ n.scale := zpow_le_zpow_right₀ (by norm_num) (by omega)
  have hmagnitude : (2 : ℚ) ^ 1024 ≤ n.magnitude := by
    rw [Numeral.magnitude]
    exact hpow.trans (le_mul_of_one_le_left (ten_zpow_pos _).le hone)
  rw [units_topRank, Nat.cast_mul, Nat.cast_pow, Nat.cast_ofNat]
  exact mul_le_mul_of_nonneg_right hmagnitude (Nat.cast_nonneg _)

/-- Below 10^-400 everything is less than half a unit. -/
theorem two_mul_magnitude_le (hdigits : ∀ c ∈ n.whole ++ n.fraction, c.isDigit = true)
    (hscale : (n.whole ++ n.fraction).length + n.scale < -400) :
    2 * (n.magnitude * unitsPerOne) ≤ 1 := by
  have hcoefficient : (n.coefficient : ℚ) ≤ 10 ^ (n.whole ++ n.fraction).length := by
    exact_mod_cast (natOfDigits_lt hdigits).le
  have hmagnitude : n.magnitude ≤ 10 ^ (-324 : Int) / 2 := by
    calc n.magnitude ≤ 10 ^ (n.whole ++ n.fraction).length * 10 ^ n.scale :=
          mul_le_mul_of_nonneg_right hcoefficient (ten_zpow_pos _).le
      _ = 10 ^ ((n.whole ++ n.fraction).length + n.scale) := by
          rw [zpow_add₀ (by norm_num), zpow_natCast]
      _ ≤ 10 ^ ((-324 : Int) - 1) := zpow_le_zpow_right₀ (by norm_num) (by omega)
      _ ≤ 10 ^ (-324 : Int) / 2 := by
          rw [zpow_sub_one₀ (by norm_num), div_eq_mul_inv]
          exact mul_le_mul_of_nonneg_left (by norm_num) (ten_zpow_pos _).le
  have hunits := mul_le_mul_of_nonneg_right hmagnitude (Nat.cast_nonneg (α := ℚ) unitsPerOne)
  have hone := ten_zpow_neg_324_mul_unitsPerOne_lt
  rw [div_mul_eq_mul_div] at hunits
  linarith

/-- A numeral is read as the rounding of its exact value, with its sign.  A rank past infinity
stands for infinity. -/
theorem exists_rounds_ofNumeral (hdigits : ∀ c ∈ n.whole ++ n.fraction, c.isDigit = true) :
    ∃ rank, ofNumeral n = ofRank n.negative rank ∧ Rounds rank (n.magnitude * unitsPerOne) := by
  have hden : 0 < Nat.pow 10 (-n.scale).toNat := Nat.pow_pos (by decide)
  have hrounds := rounds_nearestRank
    (n.coefficient * Nat.pow 10 n.scale.toNat * unitsPerOne) hden
  rw [← magnitude_mul_unitsPerOne] at hrounds
  rw [ofNumeral]
  by_cases hzero : n.coefficient = 0
  · have hmagnitude : n.magnitude = 0 := by
      rw [Numeral.magnitude, hzero, Nat.cast_zero, zero_mul]
    rw [hmagnitude, zero_mul]
    exact ⟨0, if_pos hzero, rounds_zero le_rfl (by norm_num)⟩
  rw [if_neg hzero]
  by_cases hlarge : 400 < n.scale
  · have htop := hrounds.le_rank (units_topRank_le hzero hlarge)
    exact ⟨_, (if_pos hlarge).trans (ofRank_of_topRank_le n.negative htop).symm, hrounds⟩
  rw [if_neg hlarge]
  by_cases hsmall : (n.whole ++ n.fraction).length + n.scale < -400
  · have hnonneg := mul_nonneg (magnitude_nonneg n) (Nat.cast_nonneg (α := ℚ) unitsPerOne)
    exact ⟨0, if_pos hsmall, rounds_zero hnonneg (two_mul_magnitude_le hdigits hsmall)⟩
  · exact ⟨_, if_neg hsmall, hrounds⟩

theorem signedRank_min_le {s t : Bool} {a b : Nat} (h : signedRank s a ≤ signedRank t b) :
    signedRank s (min a topRank) ≤ signedRank t (min b topRank) := by
  cases s <;> cases t <;>
    simp only [signedRank, Bool.false_eq_true, if_false, if_true] at h ⊢ <;> omega

/-- A numeral that is not above another one is not read as a larger double. -/
theorem ofNumeral_lt_eq_false (hn : ∀ c ∈ n.whole ++ n.fraction, c.isDigit = true)
    (hm : ∀ c ∈ m.whole ++ m.fraction, c.isDigit = true) (h : n.value ≤ m.value) :
    (ofNumeral m).lt (ofNumeral n) = false := by
  obtain ⟨a, hna, ha⟩ := exists_rounds_ofNumeral hn
  obtain ⟨b, hmb, hb⟩ := exists_rounds_ofNumeral hm
  have hunits : (0 : ℚ) ≤ unitsPerOne := Nat.cast_nonneg _
  have hn0 := magnitude_nonneg n
  have hm0 := magnitude_nonneg m
  rw [hna, hmb, ofRank, ofRank, lt, decide_eq_false_iff_not, Int.not_lt]
  apply signedRank_min_le
  rw [Numeral.value, Numeral.value] at h
  rw [signedRank, signedRank]
  generalize n.negative = s at h ⊢
  generalize m.negative = t at h ⊢
  cases s <;> cases t <;> simp only [Bool.false_eq_true, if_false, if_true] at h ⊢
  · have := ha.mono hb (mul_le_mul_of_nonneg_right h hunits)
    omega
  · -- A number with a minus is not below one without only if both are zero.
    have ha0 : a ≤ 0 := by
      apply ha.rank_le
      rw [le_antisymm (by linarith) hn0, zero_mul]
      exact Nat.cast_nonneg _
    have hb0 : b ≤ 0 := by
      apply hb.rank_le
      rw [le_antisymm (by linarith) hm0, zero_mul]
      exact Nat.cast_nonneg _
    omega
  · omega
  · have := hb.mono ha (mul_le_mul_of_nonneg_right (neg_le_neg_iff.mp h) hunits)
    omega

theorem toLower_of_isDigit (h : c.isDigit = true) : c.toLower = c := by
  have hle := (Char.isDigit_iff_toNat.mp h).2
  refine dif_neg fun hupper => ?_
  have hge := UInt32.le_iff_toNat_le.mp hupper.1
  exact absurd (Nat.le_trans hge hle) (by decide)

/-- What begins with a digit or the point is no word. -/
theorem sameWord_eq_false {word : String} (hc : c ∈ cs.head?) (hclass : c.isDigit = true ∨ c = '.')
    (hword : ∀ d ∈ word.toList.head?, d.isDigit = false ∧ d ≠ '.') : sameWord word cs = false := by
  have hlower : c.toLower = c := hclass.elim toLower_of_isDigit (by rintro rfl; rfl)
  refine beq_eq_false_iff_ne.mpr fun heq => ?_
  have hhead : c ∈ word.toList.head? := by
    rw [← heq, List.head?_map, hc, Option.map_some, hlower]
    rfl
  obtain ⟨hdigit, hpoint⟩ := hword c hhead
  rcases hclass with hclass | hclass
  · rw [hclass] at hdigit
    cases hdigit
  · exact hpoint hclass

/-- A token that is a literal is read as the numeral it spells. -/
theorem ofToken_of_spells (h : Spells n token.toList) : ofToken token = .ok (ofNumeral n) := by
  obtain ⟨rest, hsign, hread, c, hc, hclass⟩ := h.exists_readSign
  have hne : token.isEmpty = false := by
    refine Bool.eq_false_iff.mpr fun hempty => ?_
    rw [String.isEmpty_iff.mp hempty] at hsign
    have hnil : [] = rest := congrArg Prod.snd hsign
    rw [← hnil] at hc
    cases hc
  have hnan : sameWord "nan" rest = false := sameWord_eq_false hc hclass (by simp)
  have hinf : sameWord "inf" rest = false := sameWord_eq_false hc hclass (by simp)
  have hinfinity : sameWord "infinity" rest = false := sameWord_eq_false hc hclass (by simp)
  simp [ofToken, hne, hsign, ofUnsignedToken, hnan, hinf, hinfinity, hread]

end Binary64
end EvalDiff
