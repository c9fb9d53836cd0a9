import EvalDiff.Binary64.Shortest
import EvalDiff.Proofs.Binary64.Nearness
import EvalDiff.Proofs.Binary64.Value
import EvalDiff.Proofs.Lists
import Mathlib.Algebra.Order.Field.Power

/-!
# The shortest decimal of a double

The decimal that `shortest` finds is rounded to the double it is the decimal of:
`shortest_spec`.  The search looks at decimals nearer and nearer to the double.  One that is nearer
than half the distance to the neighbours does, so seventeen digits always suffice, and so do 324
places.
-/

namespace EvalDiff
namespace Binary64

open Decimal

variable {rank n count : Nat} {places exponent : Int}

/-! ### Powers of ten -/

theorem ten_zpow_pos (e : Int) : (0 : ℚ) < 10 ^ e := zpow_pos (by norm_num) e

/-- A power of ten as a quotient of natural numbers, one of which is one. -/
theorem ten_zpow_neg (places : Int) :
    (10 : ℚ) ^ (-places) =
      (Nat.pow 10 (-places).toNat : Nat) / (Nat.pow 10 places.toNat : Nat) := by
  rw [Nat.pow_eq, Nat.pow_eq, Nat.cast_pow, Nat.cast_pow, ← zpow_natCast, ← zpow_natCast,
    ← zpow_sub₀ (by norm_num)]
  congr 1
  omega

/-- How many units a decimal is. -/
def decimalUnits (n : Nat) (places : Int) : ℚ := n * 10 ^ (-places) * unitsPerOne

theorem decimalUnits_eq (n : Nat) (places : Int) :
    decimalUnits n places =
      (n * unitsPerOne * Nat.pow 10 (-places).toNat : Nat) / (Nat.pow 10 places.toNat : Nat) := by
  rw [decimalUnits, ten_zpow_neg]
  push_cast
  ring

/-- Zeros at the end of the digits move the point. -/
theorem decimalUnits_mul_pow (k n : Nat) (places : Int) :
    decimalUnits (10 ^ k * n) places = decimalUnits n (places - k) := by
  rw [decimalUnits, decimalUnits, neg_sub, sub_eq_add_neg, zpow_add₀ (by norm_num), zpow_natCast]
  push_cast
  ring

theorem nearest_of_readsAs_iff :
    readsAs rank places n = true ↔
      Nearest rank (n * unitsPerOne * Nat.pow 10 (-places).toNat) (Nat.pow 10 places.toNat) := by
  have hvalue : 2 * n * unitsPerOne * Nat.pow 10 (-places).toNat =
      2 * (n * unitsPerOne * Nat.pow 10 (-places).toNat) := by ring
  simp only [readsAs, hvalue]
  constructor
  · intro h
    split at h
    · simp only [Bool.and_eq_true, decide_eq_true_eq] at h
      exact ⟨h.2, h.1, fun _ => ‹_›, fun _ => ‹_›⟩
    · simp only [Bool.and_eq_true, decide_eq_true_eq] at h
      exact ⟨Nat.le_of_lt h.2, Nat.le_of_lt h.1, fun he => absurd he (Nat.ne_of_lt h.2),
        fun he => absurd he (Nat.ne_of_gt h.1)⟩
  · rintro ⟨ha, hb, ha', hb'⟩
    split
    · simp only [Bool.and_eq_true, decide_eq_true_eq]
      exact ⟨hb, ha⟩
    · simp only [Bool.and_eq_true, decide_eq_true_eq]
      exact ⟨Nat.lt_of_le_of_ne hb fun h => ‹¬ _› (hb' h.symm),
        Nat.lt_of_le_of_ne ha fun h => ‹¬ _› (ha' h)⟩

theorem readsAs_iff : readsAs rank places n = true ↔ Rounds rank (decimalUnits n places) := by
  rw [nearest_of_readsAs_iff, decimalUnits_eq]
  exact nearest_iff_rounds (Nat.pow_pos (by decide))

/-! ### The first digit -/

theorem digitCount_bounds (h : 0 < n) :
    10 ^ (digitCount n - 1) ≤ n ∧ n < 10 ^ digitCount n := by
  have hle : ∀ k, 0 < k → (digitCount n ≤ k ↔ n < 10 ^ k) := fun k hk =>
    Nat.length_toDigits_le_iff (by decide) hk
  have hpos : 0 < digitCount n := Nat.length_toDigits_pos
  refine ⟨?_, (hle _ hpos).mp (Nat.le_refl _)⟩
  rcases Nat.eq_zero_or_pos (digitCount n - 1) with h0 | h1
  · rw [h0]
    exact h
  · refine Nat.le_of_not_lt fun hlt => ?_
    have := (hle _ h1).mpr hlt
    omega

theorem leadingExponent_spec (h : 0 < rank) :
    10 ^ leadingExponent rank * (unitsPerOne : ℚ) ≤ units rank ∧
      units rank < 10 ^ (leadingExponent rank + 1) * (unitsPerOne : ℚ) := by
  have hunits := units_pos h
  rw [leadingExponent]
  split
  case isTrue hone =>
    have hquotient : 0 < units rank / unitsPerOne := Nat.div_pos hone unitsPerOne_pos
    have hpos : 0 < digitCount (units rank / unitsPerOne) := Nat.length_toDigits_pos
    obtain ⟨hge, hlt⟩ := digitCount_bounds hquotient
    rw [Nat.le_div_iff_mul_le unitsPerOne_pos] at hge
    rw [Nat.div_lt_iff_lt_mul unitsPerOne_pos] at hlt
    generalize digitCount (units rank / unitsPerOne) = c at *
    rw [show (c : Int) - 1 = (c - 1 : Nat) by omega, zpow_natCast,
      show ((c - 1 : Nat) : Int) + 1 = (c : Nat) by omega, zpow_natCast]
    exact ⟨by exact_mod_cast hge, by exact_mod_cast hlt⟩
  case isFalse hone =>
    have hquotient : 0 < (unitsPerOne - 1) / units rank := Nat.div_pos (by omega) hunits
    have hpos : 0 < digitCount ((unitsPerOne - 1) / units rank) := Nat.length_toDigits_pos
    obtain ⟨hge, hlt⟩ := digitCount_bounds hquotient
    rw [Nat.le_div_iff_mul_le hunits] at hge
    rw [Nat.div_lt_iff_lt_mul hunits] at hlt
    generalize digitCount ((unitsPerOne - 1) / units rank) = c at *
    have hge' : 10 ^ (c - 1) * units rank < unitsPerOne := by omega
    have hlt' : unitsPerOne ≤ 10 ^ c * units rank := by omega
    rw [show (-(c : Int) + 1) = -((c - 1 : Nat) : Int) by omega, zpow_neg, zpow_neg, zpow_natCast,
      zpow_natCast]
    constructor
    · rw [inv_mul_le_iff₀ (by positivity)]
      exact_mod_cast hlt'
    · rw [lt_inv_mul_iff₀ (by positivity)]
      exact_mod_cast hge'

/-- A unit is more than 10^-324. -/
theorem ten_zpow_neg_324_mul_unitsPerOne_lt : (10 : ℚ) ^ (-324 : Int) * unitsPerOne < 1 := by
  rw [zpow_neg, inv_mul_lt_iff₀ (by positivity), mul_one]
  have : unitsPerOne < 10 ^ 324 := by decide +kernel
  exact_mod_cast this

theorem neg_324_le_leadingExponent (h : 0 < rank) : -324 ≤ leadingExponent rank := by
  have hlt := (leadingExponent_spec h).2
  have hunits : (1 : ℚ) ≤ units rank := by exact_mod_cast units_pos h
  have hone := ten_zpow_neg_324_mul_unitsPerOne_lt
  refine Int.not_lt.mp fun hsmall => ?_
  have hpow : (10 : ℚ) ^ (leadingExponent rank + 1) ≤ 10 ^ (-324 : Int) :=
    zpow_le_zpow_right₀ (by norm_num) (by omega)
  have := mul_le_mul_of_nonneg_right hpow (Nat.cast_nonneg (α := ℚ) unitsPerOne)
  linarith

/-! ### Near decimals -/

/-- The distances between neighbours do not become smaller. -/
theorem two_mul_units_succ_le (rank : Nat) :
    2 * units (rank + 1) ≤ units rank + units (rank + 2) := by
  obtain ⟨k, m, rfl, hm, hk⟩ := exists_significand rank
  have hnext : (m + 2) * 2 ^ k ≤ units (k * binade + (m + 2)) := by
    rcases Nat.lt_or_ge (m + 1) (2 * binade) with hlt | hge
    · exact Nat.le_of_eq (units_add (by omega) (by omega)).symm
    · -- The next rank is the first of a binade, so the one after it is twice as far away.
      obtain rfl : m = 2 * binade - 1 := by omega
      have hend : k * binade + (2 * binade - 1 + 2) = (k + 1) * binade + (binade + 1) := by
        rw [Nat.add_mul, Nat.one_mul]
        omega
      rw [hend, units_add (by decide) (Or.inr (Nat.le_succ _)), Nat.pow_succ', ← Nat.mul_assoc]
      exact Nat.mul_le_mul_right _ (by decide)
  have hsum : 2 * ((m + 1) * 2 ^ k) = m * 2 ^ k + (m + 2) * 2 ^ k := by ring
  rw [Nat.add_assoc, Nat.add_assoc, units_add (Nat.le_of_lt hm) hk, units_add hm (by omega), hsum]
  exact Nat.add_le_add_left hnext _

theorem two_mul_units_le (hrank : 0 < rank) :
    (2 * units rank : ℚ) ≤ units (rank - 1) + units (rank + 1) := by
  have hnat := two_mul_units_succ_le (rank - 1)
  rw [show rank - 1 + 1 = rank by omega, show rank - 1 + 2 = rank + 1 by omega] at hnat
  exact_mod_cast hnat

/-- A value is rounded to the nearest number of units of the last place, and between two of them to
the even one. -/
theorem abs_roundedAt_sub (places : Int) (rank : Nat) :
    |(roundedAt places rank : ℚ) - rankValue rank * 10 ^ places| ≤ 1 / 2 ∧
      (|(roundedAt places rank : ℚ) - rankValue rank * 10 ^ places| = 1 / 2 →
        roundedAt places rank % 2 = 0) := by
  have hden : 0 < unitsPerOne * Nat.pow 10 (-places).toNat :=
    Nat.mul_pos unitsPerOne_pos (Nat.pow_pos (by decide))
  have hvalue : rankValue rank * 10 ^ places =
      (units rank * Nat.pow 10 places.toNat : Nat) /
        (unitsPerOne * Nat.pow 10 (-places).toNat : Nat) := by
    have hpow := ten_zpow_neg (-places)
    rw [neg_neg] at hpow
    rw [rankValue, hpow]
    push_cast
    exact div_mul_div_comm _ _ _ _
  rw [hvalue]
  exact abs_roundHalfEven_sub _ hden

/-- Rounding to a decimal moves a value by at most half a unit of the last place. -/
theorem abs_decimalUnits_roundedAt_sub (places : Int) (rank : Nat) :
    |decimalUnits (roundedAt places rank) places - units rank| ≤
      10 ^ (-places) * unitsPerOne / 2 := by
  have hunit : (0 : ℚ) < 10 ^ (-places) * unitsPerOne :=
    mul_pos (ten_zpow_pos _) (by exact_mod_cast unitsPerOne_pos)
  have hvalue : (units rank : ℚ) =
      rankValue rank * 10 ^ places * (10 ^ (-places) * unitsPerOne) := by
    have hpow : (10 : ℚ) ^ places ≠ 0 := (ten_zpow_pos places).ne'
    have hone : (unitsPerOne : ℚ) ≠ 0 := by exact_mod_cast unitsPerOne_pos.ne'
    rw [rankValue, zpow_neg]
    field_simp
  rw [decimalUnits, hvalue, mul_assoc, ← sub_mul, abs_mul, abs_of_pos hunit, mul_div_right_comm]
  calc _ ≤ 1 / 2 * (10 ^ (-places) * (unitsPerOne : ℚ)) :=
        mul_le_mul_of_nonneg_right (abs_roundedAt_sub places rank).1 hunit.le
    _ = 10 ^ (-places) / 2 * unitsPerOne := by ring

/-- A decimal that is nearer than half the distance to the neighbours reads as the double. -/
theorem readsAs_roundedAt (hrank : 0 < rank)
    (h : 10 ^ (-places) * (unitsPerOne : ℚ) < units rank - units (rank - 1)) :
    readsAs rank places (roundedAt places rank) = true := by
  obtain ⟨hge, hle⟩ := abs_le.mp (abs_decimalUnits_roundedAt_sub places rank)
  have hgap := two_mul_units_le hrank
  rw [readsAs_iff]
  refine ⟨?_, ?_, fun heq => ?_, fun heq => ?_⟩ <;> linarith

/-- Neighbours are more than one part in ten to the 16 apart. -/
theorem readsAs_seventeen_digits (h : 0 < rank) :
    readsAs rank (16 - leadingExponent rank) (roundedAt (16 - leadingExponent rank) rank) =
      true := by
  refine readsAs_roundedAt h ?_
  have hlead := (leadingExponent_spec h).1
  have hgap := one_add_roundoff_mul_units_lt (rank - 1)
  rw [Nat.sub_add_cancel h] at hgap
  have hpow : (10 : ℚ) ^ (-(16 - leadingExponent rank)) =
      10 ^ leadingExponent rank / 10 ^ 16 := by
    rw [neg_sub, zpow_sub₀ (by norm_num)]
    norm_cast
  have hunits : (1 : ℚ) ≤ units rank := by exact_mod_cast units_pos h
  rw [hpow, div_mul_eq_mul_div, div_lt_iff₀ (by norm_num)]
  norm_num [roundoff, binade] at hgap
  linarith

/-- Neighbours are at least a unit apart. -/
theorem readsAs_324_places (h : 0 < rank) : readsAs rank 324 (roundedAt 324 rank) = true := by
  refine readsAs_roundedAt h ?_
  have hgap : (units (rank - 1) + 1 : ℚ) ≤ units rank := by
    exact_mod_cast units_strictMono (Nat.sub_lt h Nat.one_pos)
  have hone := ten_zpow_neg_324_mul_unitsPerOne_lt
  linarith

/-! ### The search -/

/-- The last multiple of `10 ^ -places` that is not above the value, in these multiples. -/
def lowerAt (places : Int) (rank : Nat) : Nat :=
  units rank * Nat.pow 10 places.toNat / (unitsPerOne * Nat.pow 10 (-places).toNat)

theorem le_lowerAt_iff : n ≤ lowerAt places rank ↔ decimalUnits n places ≤ units rank := by
  have hdown : (0 : ℚ) < (Nat.pow 10 places.toNat : Nat) := by
    exact_mod_cast Nat.pow_pos (by decide)
  have hden : 0 < unitsPerOne * Nat.pow 10 (-places).toNat :=
    Nat.mul_pos unitsPerOne_pos (Nat.pow_pos (by decide))
  rw [lowerAt, Nat.le_div_iff_mul_le hden, decimalUnits_eq, div_le_iff₀ hdown, ← Nat.mul_assoc]
  exact_mod_cast Iff.rfl

theorem lowerAt_le_roundedAt (places : Int) (rank : Nat) :
    lowerAt places rank ≤ roundedAt places rank := div_le_roundHalfEven _ _

theorem roundedAt_le_succ_lowerAt (places : Int) (rank : Nat) :
    roundedAt places rank ≤ lowerAt places rank + 1 := roundHalfEven_le_succ _ _

/-- It has as many digits as there are places from the first digit on. -/
theorem lowerAt_bounds (hrank : 0 < rank) (hcount : 0 < count)
    (hplaces : places = count - 1 - leadingExponent rank) :
    10 ^ (count - 1) ≤ lowerAt places rank ∧ lowerAt places rank < 10 ^ count := by
  obtain ⟨hge, hlt⟩ := leadingExponent_spec hrank
  have hvalue : ∀ (k : Nat) (e : Int), (k : Int) - places = e →
      decimalUnits (10 ^ k) places = 10 ^ e * (unitsPerOne : ℚ) := by
    intro k e he
    rw [decimalUnits, Nat.cast_pow, ← zpow_natCast, Nat.cast_ofNat, ← zpow_add₀ (by norm_num),
      ← sub_eq_add_neg, he]
  constructor
  · rw [le_lowerAt_iff, hvalue _ (leadingExponent rank) (by omega)]
    exact hge
  · refine Nat.lt_of_not_le fun hle => ?_
    rw [le_lowerAt_iff, hvalue _ (leadingExponent rank + 1) (by omega)] at hle
    exact absurd hlt (not_lt.mpr hle)

/-- The multiple on the other side of the value. -/
def otherAt (places : Int) (rank : Nat) : Nat :=
  if roundedAt places rank = lowerAt places rank then lowerAt places rank + 1
  else lowerAt places rank

theorem shortened?_eq (exponent : Int) (rank count : Nat) :
    shortened? exponent rank count =
      let places := count - 1 - exponent
      if readsAs rank places (roundedAt places rank) then some (roundedAt places rank, places)
      else if readsAs rank places (otherAt places rank) then some (otherAt places rank, places)
      else none := rfl

theorem otherAt_bounds (places : Int) (rank : Nat) :
    lowerAt places rank ≤ otherAt places rank ∧
      otherAt places rank ≤ lowerAt places rank + 1 := by
  rw [otherAt]
  split
  · exact ⟨Nat.le_succ _, Nat.le_refl _⟩
  · exact ⟨Nat.le_refl _, Nat.le_succ _⟩

/-- A candidate reads as the double, and its digits are as many as are asked for, or it is ten, a
hundred and so on. -/
theorem shortened?_spec (hrank : 0 < rank) (hcount : 0 < count)
    (h : shortened? (leadingExponent rank) rank count = some (n, places)) :
    places = count - 1 - leadingExponent rank ∧ readsAs rank places n = true ∧ 0 < n ∧
      n ≤ 10 ^ count := by
  rw [shortened?_eq] at h
  simp only at h
  obtain ⟨hfirst, hlt⟩ := lowerAt_bounds hrank hcount rfl
  have hpos := Nat.lt_of_lt_of_le (Nat.pow_pos (by decide)) hfirst
  have hle := lowerAt_le_roundedAt (count - 1 - leadingExponent rank) rank
  have hge := roundedAt_le_succ_lowerAt (count - 1 - leadingExponent rank) rank
  have hother := otherAt_bounds (count - 1 - leadingExponent rank) rank
  split at h
  case isTrue hreads =>
    simp only [Option.some.injEq, Prod.mk.injEq] at h
    obtain ⟨rfl, rfl⟩ := h
    exact ⟨rfl, hreads, by omega, by omega⟩
  case isFalse =>
    split at h
    case isTrue hreads =>
      simp only [Option.some.injEq, Prod.mk.injEq] at h
      obtain ⟨rfl, rfl⟩ := h
      exact ⟨rfl, hreads, by omega, by omega⟩
    case isFalse => cases h

theorem shortened?_isSome (h : readsAs rank (count - 1 - exponent)
    (roundedAt (count - 1 - exponent) rank) = true) :
    (shortened? exponent rank count).isSome = true := by
  simp only [shortened?]
  rw [if_pos h]
  rfl

/-- The shortest decimal is rounded to the double it is the decimal of. -/
theorem shortest_spec (hrank : 0 < rank) (h : shortest rank = (n, places)) :
    Rounds rank (decimalUnits n places) ∧ 0 < n ∧ n ≤ 10 ^ 17 ∧ places ≤ 324 := by
  have hlead := neg_324_le_leadingExponent hrank
  rw [shortest] at h
  -- With one digit in the last of 324 places the search is over, if it comes to that.
  have hlast : ∀ count : Nat, (count : Int) - 1 - leadingExponent rank = 324 →
      (shortened? (leadingExponent rank) rank count).isSome = true := fun count hcount =>
    shortened?_isSome (by rw [hcount]; exact readsAs_324_places hrank)
  cases hsearch : (List.range' 1 16).findSome? (shortened? (leadingExponent rank) rank) with
  | none =>
    rw [hsearch] at h
    simp only [Prod.mk.injEq] at h
    obtain ⟨rfl, rfl⟩ := h
    have hsmall : -308 ≤ leadingExponent rank := by
      refine Int.not_lt.mp fun hlt => ?_
      have hsome := hlast (leadingExponent rank + 325).toNat (by omega)
      rw [findSome?_range'_eq_none hsearch (by omega) (by omega)] at hsome
      cases hsome
    have hcount : 16 - leadingExponent rank = (17 : Nat) - 1 - leadingExponent rank := rfl
    obtain ⟨hfirst, hlt⟩ := lowerAt_bounds hrank (by decide) hcount
    have hle := lowerAt_le_roundedAt (16 - leadingExponent rank) rank
    have hge := roundedAt_le_succ_lowerAt (16 - leadingExponent rank) rank
    refine ⟨readsAs_iff.mp (readsAs_seventeen_digits hrank), ?_, ?_, by omega⟩
    · exact Nat.lt_of_lt_of_le (Nat.pow_pos (by decide)) (Nat.le_trans hfirst hle)
    · exact Nat.le_trans hge hlt
  | some d =>
    obtain ⟨m, p⟩ := d
    rw [hsearch] at h
    obtain ⟨count, hone, hcount, hfound, hbefore⟩ := findSome?_range'_eq_some hsearch
    obtain ⟨hp, hreads, hpos, hle⟩ := shortened?_spec hrank hone hfound
    have hplaces : p ≤ 324 := by
      refine Int.not_lt.mp fun hlt => ?_
      have hsome := hlast (leadingExponent rank + 325).toNat (by omega)
      rw [hbefore _ (by omega) (by omega)] at hsome
      cases hsome
    have hdigits : m ≤ 10 ^ 17 :=
      Nat.le_trans hle (Nat.pow_le_pow_right (by decide) (by omega))
    split at h
    case h_1 p' heq =>
      cases heq
      cases h
      refine ⟨?_, Nat.one_pos, by decide, by omega⟩
      have hten := decimalUnits_mul_pow 1 1 p
      rw [Nat.cast_one] at hten
      rw [← hten]
      exact readsAs_iff.mp hreads
    case h_2 heq =>
      cases heq
      cases h
      exact ⟨readsAs_iff.mp hreads, hpos, hdigits, hplaces⟩
    case h_3 heq => cases heq

/-- A finite double is below 10^309. -/
theorem neg_308_le_places (hrank : rank < topRank) (hn : 0 < n)
    (h : Rounds rank (decimalUnits n places)) : -308 ≤ places := by
  refine Int.not_lt.mp fun hlt => ?_
  have hself := units_le_units (Nat.le_of_lt hrank)
  have hnext := units_le_units (Nat.succ_le_of_lt hrank)
  rw [Nat.succ_eq_add_one] at hnext
  have htop : (units topRank : ℚ) < 10 ^ (309 : Int) * unitsPerOne := by
    have : units topRank < 10 ^ 309 * unitsPerOne := by decide +kernel
    exact_mod_cast this
  have hpow : (10 : ℚ) ^ (309 : Int) ≤ n * 10 ^ (-places) :=
    calc (10 : ℚ) ^ (309 : Int) ≤ 10 ^ (-places) := zpow_le_zpow_right₀ (by norm_num) (by omega)
      _ ≤ n * 10 ^ (-places) :=
        le_mul_of_one_le_left (le_of_lt (ten_zpow_pos _)) (by exact_mod_cast hn)
  have hvalue : 10 ^ (309 : Int) * (unitsPerOne : ℚ) ≤ decimalUnits n places :=
    mul_le_mul_of_nonneg_right hpow (Nat.cast_nonneg _)
  linarith [h.above]

end Binary64
end EvalDiff
