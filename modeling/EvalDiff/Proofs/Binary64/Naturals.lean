import EvalDiff.Proofs.Binary64.Value

/-!
# Natural numbers as doubles

Up to 2^53 every natural number is a double, so counting by adding one is exact, and the
quotient of two counts is their rational quotient rounded once.
-/

namespace EvalDiff
namespace Binary64

/-- A double is a natural number, with a plus sign. -/
def IsNat (x : Binary64) (n : Nat) : Prop :=
  ∃ rank, ∃ h : rank < topRank,
    x = .number false rank (Nat.le_of_lt h) ∧ units rank = n * unitsPerOne

theorem two_pow_eq_unitsPerOne {e : Nat} (h : e = 1074) : 2 ^ e = unitsPerOne := by
  unfold unitsPerOne
  generalize 1074 = k at h ⊢
  subst h
  rfl

theorem two_pow_le_unitsPerOne : 2 ^ 53 ≤ unitsPerOne := by
  obtain ⟨e, he⟩ : ∃ e, e = 1074 := ⟨_, rfl⟩
  rw [← two_pow_eq_unitsPerOne he]
  exact Nat.pow_le_pow_right Nat.two_pos (by omega)

/-- The first number of each binade from one on. -/
theorem units_eq_two_pow {rank j : Nat} (h : rank = (1023 + j) * binade) :
    units rank = 2 ^ j * unitsPerOne := by
  obtain ⟨e, he⟩ : ∃ e, e = 1074 := ⟨_, rfl⟩
  have hrank : (1023 + j) * binade = (1022 + j) * binade + binade := by
    rw [← Nat.succ_mul, Nat.succ_eq_add_one, Nat.add_right_comm]
  rw [h, hrank, units_add (Nat.le_mul_of_pos_left _ Nat.two_pos) (Or.inr (Nat.le_refl _)),
    ← two_pow_eq_unitsPerOne he, binade_eq, ← Nat.pow_add, ← Nat.pow_add]
  congr 1
  omega

theorem exists_units_eq {n : Nat} (h : n ≤ 2 ^ 53) :
    ∃ rank, rank < topRank ∧ units rank = n * unitsPerOne := by
  rcases Nat.eq_zero_or_pos n with h0 | hpos
  · exact ⟨0, by decide, by rw [h0, units_zero, Nat.zero_mul]⟩
  -- The significand is `n` moved up to its binade; the last number there is the first of the
  -- next.
  obtain ⟨j, hj, hle, hlt⟩ : ∃ j, j ≤ 52 ∧ 2 ^ j ≤ n ∧ n ≤ 2 ^ (j + 1) := by
    rcases Nat.lt_or_ge (Nat.log2 n) 52 with hlog | hlog
    · exact ⟨Nat.log2 n, Nat.le_of_lt hlog, Nat.log2_self_le (Nat.ne_of_gt hpos),
        Nat.le_of_lt Nat.lt_log2_self⟩
    · exact ⟨52, Nat.le_refl _, (Nat.le_log2 (Nat.ne_of_gt hpos)).mp hlog, h⟩
  have hscale : 2 ^ j * 2 ^ (52 - j) = 2 ^ 52 := by
    rw [← Nat.pow_add, Nat.add_sub_cancel' hj]
  have hm : n * 2 ^ (52 - j) ≤ 2 * binade := by
    rw [binade_eq, ← hscale, ← Nat.mul_assoc, ← Nat.pow_succ']
    exact Nat.mul_le_mul_right _ hlt
  have hm' : binade ≤ n * 2 ^ (52 - j) := by
    rw [binade_eq, ← hscale]
    exact Nat.mul_le_mul_right _ hle
  refine ⟨(1022 + j) * binade + n * 2 ^ (52 - j), ?_, ?_⟩
  · have htop : topRank = 2047 * binade := by decide
    have hpos : 0 < binade := by decide
    have : (1022 + j) * binade ≤ 1074 * binade := Nat.mul_le_mul_right _ (by omega)
    omega
  · rw [units_add hm (Or.inr hm'), Nat.mul_assoc, ← Nat.pow_add,
      two_pow_eq_unitsPerOne (by omega)]

theorem units_eq_zero_iff {rank : Nat} : units rank = 0 ↔ rank = 0 := by
  rw [← units_zero]
  exact units_strictMono.injective.eq_iff

/-! ### Counting -/

theorem isNat_zero : IsNat zero 0 :=
  ⟨0, by decide, rfl, by rw [units_zero, Nat.zero_mul]⟩

theorem isNat_one : IsNat one 1 := by
  refine ⟨0x3ff0000000000000, by decide, rfl, ?_⟩
  rw [units_eq_two_pow (j := 0) (by decide), Nat.pow_zero]

theorem IsNat.isZero_iff {x : Binary64} {n : Nat} (h : IsNat x n) :
    x.isZero = true ↔ n = 0 := by
  obtain ⟨rank, hlt, rfl, hunits⟩ := h
  rw [isZero, beq_iff_eq, ← units_eq_zero_iff, hunits, Nat.mul_eq_zero]
  exact or_iff_left (Nat.ne_of_gt unitsPerOne_pos)

/-- The double of a natural number is the one that its units are rounded to. -/
theorem isNat_ofUnits {n : Nat} (h : n ≤ 2 ^ 53) :
    IsNat (ofUnits false (n * unitsPerOne) 1) n := by
  obtain ⟨rank, hlt, hunits⟩ := exists_units_eq h
  have hrank : nearestRank (n * unitsPerOne) 1 = rank := by
    rw [← Nat.mul_one (n * unitsPerOne), ← hunits]
    exact nearestRank_units_mul rank Nat.one_pos
  refine ⟨rank, hlt, ?_, hunits⟩
  rw [ofUnits, hrank, ofRank_of_le]

theorem isNat_ofNat {n : Nat} (h : n ≤ 2 ^ 53) : IsNat (ofNat n) n := isNat_ofUnits h

theorem add_eq_ofUnits {a b : Nat} (ha : a < topRank) (hb : b < topRank)
    (hpos : 0 < units a + units b) :
    (number false a (Nat.le_of_lt ha)) + (number false b (Nat.le_of_lt hb)) =
      ofUnits false (units a + units b) 1 := by
  show add _ _ = _
  rw [add, if_neg (Nat.ne_of_lt ha), if_neg (Nat.ne_of_lt hb)]
  have hsum : signedUnits false a + signedUnits false b = ((units a + units b : Nat) : Int) := rfl
  simp only [hsum]
  rw [if_neg (by omega), decide_eq_false (by omega), Int.natAbs_natCast]

theorem IsNat.unique {x y : Binary64} {n : Nat} (hx : IsNat x n) (hy : IsNat y n) : x = y := by
  obtain ⟨a, ha, rfl, hunits⟩ := hx
  obtain ⟨b, hb, rfl, hunits'⟩ := hy
  cases units_strictMono.injective (hunits.trans hunits'.symm)
  rfl

/-- Sums are exact as long as they do not pass 2^53. -/
theorem IsNat.add {x y : Binary64} {n m : Nat} (hx : IsNat x n) (hy : IsNat y m)
    (h : n + m ≤ 2 ^ 53) : IsNat (x + y) (n + m) := by
  rcases Nat.eq_zero_or_pos (n + m) with h0 | hpos
  · have hn : n = 0 := by omega
    have hm : m = 0 := by omega
    subst hn hm
    have hzero : zero + zero = zero := by decide
    rw [hx.unique isNat_zero, hy.unique isNat_zero, hzero]
    exact isNat_zero
  · obtain ⟨a, ha, rfl, hunits⟩ := hx
    obtain ⟨b, hb, rfl, hunits'⟩ := hy
    have hsum : units a + units b = (n + m) * unitsPerOne := by
      rw [hunits, hunits', ← Nat.add_mul]
    have hsum_pos : 0 < units a + units b := by
      rw [hsum]
      exact Nat.mul_pos hpos unitsPerOne_pos
    rw [add_eq_ofUnits ha hb hsum_pos, hsum]
    exact isNat_ofUnits h

theorem IsNat.add_one {x : Binary64} {n : Nat} (h : IsNat x n) (hn : n < 2 ^ 53) :
    IsNat (x + one) (n + 1) :=
  h.add isNat_one hn

/-- The next double after 2^53 is 2^53 + 2, and half way to it the even significand stays. -/
theorem nearestRank_two_pow_add_one :
    nearestRank ((2 ^ 53 + 1) * unitsPerOne) 1 = 0x4340000000000000 := by
  decide +kernel

theorem IsNat.add_one_of_two_pow {x : Binary64} (h : IsNat x (2 ^ 53)) : x + one = x := by
  obtain ⟨a, ha, rfl, hunits⟩ := h
  obtain ⟨b, hb, hone, hunits'⟩ := isNat_one
  have hrank : a = 0x4340000000000000 := by
    have htop : units 0x4340000000000000 = 2 ^ 53 * unitsPerOne :=
      units_eq_two_pow (by decide)
    exact units_strictMono.injective (hunits.trans htop.symm)
  have hpos : 0 < units a + units b := by
    rw [hunits', Nat.one_mul]
    exact Nat.add_pos_right _ unitsPerOne_pos
  subst hrank
  rw [hone, add_eq_ofUnits ha hb hpos, hunits, hunits', ← Nat.add_mul, ofUnits,
    nearestRank_two_pow_add_one, ofRank_of_le]

/-- Counting by one is exact up to 2^53 and stops there. -/
theorem IsNat.add_one_min {x : Binary64} {n : Nat} (h : IsNat x (min n (2 ^ 53))) :
    IsNat (x + one) (min (n + 1) (2 ^ 53)) := by
  rcases Nat.lt_or_ge n (2 ^ 53) with hn | hn
  · rw [Nat.min_eq_left (Nat.le_of_lt hn)] at h
    rw [Nat.min_eq_left hn]
    exact h.add_one hn
  · rw [Nat.min_eq_right hn] at h
    rw [h.add_one_of_two_pow, Nat.min_eq_right (Nat.le_succ_of_le hn)]
    exact h

/-! ### Quotients of counts -/

theorem div_eq_ofUnits {a b : Nat} (ha : a < topRank) (hb : b < topRank) (hpos : 0 < units b) :
    (number false a (Nat.le_of_lt ha)) / (number false b (Nat.le_of_lt hb)) =
      ofUnits false (units a * unitsPerOne) (units b) := by
  have hne : b ≠ 0 := by
    rintro rfl
    exact absurd units_zero (Nat.ne_of_gt hpos)
  show div _ _ = _
  simp only [div, Nat.ne_of_lt ha, Nat.ne_of_lt hb, hne, if_false]
  rfl

variable {x y : Binary64} {n m : Nat}

/-- The quotient of two counts is a finite double: it does not exceed the first count. -/
theorem IsNat.exists_div_eq (hx : IsNat x n) (hy : IsNat y m) (hm : 0 < m) :
    ∃ h : nearestRank (n * unitsPerOne * unitsPerOne) (m * unitsPerOne) < topRank,
      x / y = .number false _ (Nat.le_of_lt h) := by
  obtain ⟨a, ha, rfl, hunits⟩ := hx
  obtain ⟨b, hb, rfl, hunits'⟩ := hy
  have hpos : 0 < units b := by
    rw [hunits']
    exact Nat.mul_pos hm unitsPerOne_pos
  have hle : nearestRank (units a * unitsPerOne) (units b) ≤ a := by
    refine nearestRank_le hpos ?_
    rw [hunits']
    exact Nat.mul_le_mul_left _ (Nat.le_mul_of_pos_left _ hm)
  rw [div_eq_ofUnits ha hb hpos, ← hunits, ← hunits']
  have hlt := Nat.lt_of_le_of_lt hle ha
  exact ⟨hlt, ofUnits_of_lt false hlt⟩

theorem IsNat.isRoundingOf_div (hx : IsNat x n) (hy : IsNat y m) (hm : 0 < m) :
    IsRoundingOf (x / y) (n / m : ℚ) := by
  obtain ⟨h, heq⟩ := hx.exists_div_eq hy hm
  have hden : 0 < m * unitsPerOne := Nat.mul_pos hm unitsPerOne_pos
  have hu : (unitsPerOne : ℚ) ≠ 0 := by exact_mod_cast Nat.ne_of_gt unitsPerOne_pos
  have hq : (signFactor false : ℚ) *
      ((n * unitsPerOne * unitsPerOne : Nat) / ((m * unitsPerOne : Nat) * unitsPerOne) : ℚ) =
      n / m := by
    rw [signFactor, if_neg (by decide)]
    push_cast
    rw [one_mul, mul_div_mul_right _ _ hu, mul_div_mul_right _ _ hu]
  rw [heq, ← ofUnits_of_lt false h, ← hq]
  exact ofUnits_isRoundingOf false hden h

theorem IsNat.isZero_div_iff (hx : IsNat x n) (hy : IsNat y m) (hm : 0 < m)
    (hle : m ≤ 2 ^ 53) : (x / y).isZero = true ↔ n = 0 := by
  obtain ⟨h, heq⟩ := hx.exists_div_eq hy hm
  have hden : 0 < m * unitsPerOne := Nat.mul_pos hm unitsPerOne_pos
  rw [heq, isZero, beq_iff_eq]
  constructor
  · intro hzero
    refine Nat.eq_zero_of_not_pos fun hn => ?_
    have hone : 1 ≤ nearestRank (n * unitsPerOne * unitsPerOne) (m * unitsPerOne) := by
      refine le_nearestRank hden ?_
      rw [units_one, Nat.one_mul]
      refine Nat.mul_le_mul_right _ (Nat.le_trans hle ?_)
      exact Nat.le_trans two_pow_le_unitsPerOne (Nat.le_mul_of_pos_left _ hn)
    omega
  · rintro rfl
    rw [Nat.zero_mul, Nat.zero_mul, nearestRank_zero hden]

theorem IsNat.zero_le_div (hx : IsNat x n) (hy : IsNat y m) (hm : 0 < m) :
    le zero (x / y) = true := by
  obtain ⟨h, heq⟩ := hx.exists_div_eq hy hm
  rw [heq, zero, ofRank, le, decide_eq_true_iff]
  exact Int.natCast_nonneg _

/-! ### Multiples -/

/-- A multiple of a double has its sign bit, also where it overflows, and that of a zero is the
zero. -/
theorem IsNat.exists_mul_eq (hx : IsNat x n) (hn : 0 < n) (negative : Bool) {rank : Nat}
    (hle : rank ≤ topRank) :
    ∃ product, ∃ hproduct : product ≤ topRank,
      number negative rank hle * x = .number negative product hproduct ∧
        (rank = 0 → product = 0) := by
  have hzero := mt hx.isZero_iff.mp (Nat.ne_of_gt hn)
  obtain ⟨other, hlt, rfl, -⟩ := hx
  have hother : other ≠ 0 := fun h => hzero (beq_iff_eq.mpr h)
  have hmul : number negative rank hle * number false other (Nat.le_of_lt hlt) =
      ofRank negative
        (if rank = topRank then topRank
          else nearestRank (units rank * units other) unitsPerOne) := by
    show mul _ _ = _
    rw [mul, Bool.bne_false]
    by_cases htop : rank = topRank
    · have hrank : ¬ (rank = 0 ∨ other = 0) := by
        rw [htop]
        exact not_or.mpr ⟨by decide, hother⟩
      rw [if_pos (.inl htop), if_neg hrank, if_pos htop]
      rfl
    · rw [if_neg (not_or.mpr ⟨htop, Nat.ne_of_lt hlt⟩), if_neg htop]
      rfl
  rw [hmul]
  refine ⟨_, Nat.min_le_right _ _, rfl, ?_⟩
  rintro rfl
  rw [if_neg (by decide), units_zero, Nat.zero_mul, nearestRank_zero unitsPerOne_pos, Nat.zero_min]

end Binary64
end EvalDiff
