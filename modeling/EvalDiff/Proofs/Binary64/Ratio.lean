import EvalDiff.Proofs.Binary64.Naturals

/-!
# Quotients beside one

On which side of one a quotient of doubles lies, and what the sign is once one is taken away.
Rounding does not lose the side: neighbouring ranks are so far apart, compared with their
values, that the quotient of two different ones is never rounded to one.
-/

namespace EvalDiff
namespace Binary64

/-! ### Ranks -/

/-- The rank of one. -/
def oneRank : Nat := 0x3ff0000000000000

theorem oneRank_lt_topRank : oneRank < topRank := by decide

/-- The neighbours of one, in halves of the distance to the next rank. -/
theorem exists_units_around_one :
    ∃ w, 0 < w ∧ unitsPerOne = 2 * binade * w ∧ units (oneRank - 1) = (2 * binade - 1) * w ∧
      units oneRank = 2 * binade * w ∧ units (oneRank + 1) = (2 * binade + 2) * w :=
  ⟨2 ^ 1021, by decide +kernel⟩

theorem units_oneRank : units oneRank = unitsPerOne := by
  rw [units_eq_two_pow (j := 0) (by decide), Nat.pow_zero, Nat.one_mul]

/-- The next rank is further on by more than one part in 2^53. -/
theorem units_succ_gap (rank : Nat) :
    (2 * binade + 1) * units rank < 2 * binade * units (rank + 1) := by
  obtain ⟨k, m, rfl, hm, hk⟩ := exists_significand rank
  rw [Nat.add_assoc, units_add (Nat.le_of_lt hm) hk, units_add hm (by omega),
    ← Nat.mul_assoc, ← Nat.mul_assoc]
  refine Nat.mul_lt_mul_of_pos_right ?_ (Nat.two_pow_pos k)
  rw [Nat.succ_mul, Nat.mul_succ]
  omega

theorem units_gap {a b : Nat} (h : a < b) :
    (2 * binade + 1) * units a < 2 * binade * units b :=
  Nat.lt_of_lt_of_le (units_succ_gap a) (Nat.mul_le_mul_left _ (units_strictMono.monotone h))

theorem units_pos {rank : Nat} (h : 0 < rank) : 0 < units rank := by
  have := units_strictMono h
  omega

theorem oneRank_lt_nearestRank {a b : Nat} (ha : 0 < a) (h : a < b) :
    oneRank < nearestRank (units b * unitsPerOne) (units a) := by
  obtain ⟨w, hw, hunits, -, hone, hnext⟩ := exists_units_around_one
  refine Nat.lt_of_not_le fun hle => ?_
  have hself := units_strictMono.monotone hle
  have hsucc := units_strictMono.monotone (Nat.succ_le_succ hle)
  have hmid := (nearestRank_spec (units b * unitsPerOne) (units_pos ha)).above
  have hmul : 2 * binade * units b * (2 * w) ≤ (2 * binade + 1) * units a * (2 * w) := by
    calc 2 * binade * units b * (2 * w) = 2 * (units b * unitsPerOne) := by rw [hunits]; ring
      _ ≤ _ := hmid
      _ ≤ (2 * binade * w + (2 * binade + 2) * w) * units a := by
          rw [← hone, ← hnext]
          exact Nat.mul_le_mul_right _ (Nat.add_le_add hself hsucc)
      _ = (2 * binade + 1) * units a * (2 * w) := by ring
  have hle := Nat.le_of_mul_le_mul_right hmul (by omega)
  have hgap := units_gap h
  omega

theorem nearestRank_lt_oneRank {a b : Nat} (h : b < a) :
    nearestRank (units b * unitsPerOne) (units a) < oneRank := by
  obtain ⟨w, hw, hunits, hprev, hone, -⟩ := exists_units_around_one
  refine Nat.lt_of_not_le fun hle => ?_
  have hself := units_strictMono.monotone hle
  have hpred := units_strictMono.monotone (Nat.sub_le_sub_right hle 1)
  have hmid := (nearestRank_spec (units b * unitsPerOne) (units_pos (by omega : 0 < a))).below
  have hsum : 2 * binade - 1 + 2 * binade = 4 * binade - 1 := by decide
  have hmul : (4 * binade - 1) * units a * w ≤ 4 * binade * units b * w := by
    calc (4 * binade - 1) * units a * w =
          ((2 * binade - 1) * w + 2 * binade * w) * units a := by
          rw [← Nat.add_mul, hsum]; ring
      _ ≤ _ := by
          rw [← hprev, ← hone]
          exact Nat.mul_le_mul_right _ (Nat.add_le_add hpred hself)
      _ ≤ 2 * (units b * unitsPerOne) := hmid
      _ = 4 * binade * units b * w := by rw [hunits]; ring
  have hle := Nat.le_of_mul_le_mul_right hmul hw
  have hgap := units_gap h
  simp only [binade] at hle hgap
  omega

/-- A quotient is rounded to the side of one that it is on. -/
theorem oneRank_lt_nearestRank_iff {a b : Nat} (ha : 0 < a) :
    oneRank < nearestRank (units b * unitsPerOne) (units a) ↔ a < b := by
  refine ⟨fun h => Nat.lt_of_not_le fun hle => ?_, oneRank_lt_nearestRank ha⟩
  have : nearestRank (units b * unitsPerOne) (units a) ≤ oneRank := by
    refine nearestRank_le (units_pos ha) ?_
    rw [units_oneRank, Nat.mul_comm]
    exact Nat.mul_le_mul_left _ (units_strictMono.monotone hle)
  omega

theorem nearestRank_lt_oneRank_iff {a b : Nat} (ha : 0 < a) :
    nearestRank (units b * unitsPerOne) (units a) < oneRank ↔ b < a := by
  refine ⟨fun h => Nat.lt_of_not_le fun hle => ?_, nearestRank_lt_oneRank⟩
  have : oneRank ≤ nearestRank (units b * unitsPerOne) (units a) := by
    refine le_nearestRank (units_pos ha) ?_
    rw [units_oneRank, Nat.mul_comm]
    exact Nat.mul_le_mul_right _ (units_strictMono.monotone hle)
  omega

/-- A whole number of units is not rounded to zero. -/
theorem nearestRank_pos {n : Nat} (h : 0 < n) : 0 < nearestRank n 1 :=
  le_nearestRank Nat.one_pos (by rw [units_one]; omega)

/-! ### Signs -/

theorem one_eq_number : one = .number false oneRank (by decide) := rfl

/-- The order of doubles is the order of their values. -/
theorem signedRank_lt_iff (s t : Bool) (a b : Nat) :
    signedRank s a < signedRank t b ↔ signedUnits s a < signedUnits t b := by
  have hlt := units_strictMono.lt_iff_lt (a := a) (b := b)
  have hgt := units_strictMono.lt_iff_lt (a := b) (b := a)
  have ha := @units_eq_zero_iff a
  have hb := @units_eq_zero_iff b
  cases s <;> cases t <;> simp only [signedRank, signedUnits, if_true] <;> simp <;> omega

theorem signedUnits_one : signedUnits false oneRank = unitsPerOne := by
  rw [← units_oneRank]
  rfl

theorem one_lt_number_iff (negative : Bool) {rank : Nat} (h : rank ≤ topRank) :
    one.lt (number negative rank h) = true ↔ (unitsPerOne : Int) < signedUnits negative rank := by
  rw [one_eq_number, lt, decide_eq_true_iff, signedRank_lt_iff, signedUnits_one]

theorem number_lt_one_iff (negative : Bool) {rank : Nat} (h : rank ≤ topRank) :
    (number negative rank h).lt one = true ↔ signedUnits negative rank < (unitsPerOne : Int) := by
  rw [one_eq_number, lt, decide_eq_true_iff, signedRank_lt_iff, signedUnits_one]

theorem zero_lt_ofRank_iff (negative : Bool) (rank : Nat) :
    zero.lt (ofRank negative rank) = true ↔ negative = false ∧ 0 < rank := by
  have htop : 0 < topRank := by decide
  rw [zero, ofRank, ofRank, lt, decide_eq_true_iff]
  cases negative <;> simp [signedRank]; omega

theorem ofRank_lt_zero_iff (negative : Bool) (rank : Nat) :
    (ofRank negative rank).lt zero = true ↔ negative = true ∧ 0 < rank := by
  have htop : 0 < topRank := by decide
  rw [zero, ofRank, ofRank, lt, decide_eq_true_iff]
  cases negative <;> simp [signedRank]; omega

/-- What is left of a finite number less one. -/
theorem sub_one_of_lt {negative : Bool} {rank : Nat} (h : rank < topRank) :
    number negative rank (Nat.le_of_lt h) - one =
      let rest := signedUnits negative rank - unitsPerOne
      if rest = 0 then ofRank false 0 else ofUnits (rest < 0) rest.natAbs 1 := by
  have hone : signedUnits true oneRank = -(unitsPerOne : Int) := by
    rw [signedUnits, if_pos rfl, units_oneRank]
  show sub _ _ = _
  rw [one_eq_number, sub, neg, add, if_neg (Nat.ne_of_lt h),
    if_neg (Nat.ne_of_lt oneRank_lt_topRank)]
  simp only [Bool.not_false, Bool.and_true, hone, ← Int.sub_eq_add_neg]
  split
  · rename_i hzero
    cases negative with
    | false => rfl
    | true =>
      have := unitsPerOne_pos
      simp only [signedUnits, if_true] at hzero
      omega
  · rfl

theorem infinity_sub_one (negative : Bool) : infinity negative - one = infinity negative := by
  cases negative <;> rfl

/-- Taking one away leaves the sign that tells the side of one. -/
theorem zero_lt_sub_one (x : Binary64) : zero.lt (x - one) = true ↔ one.lt x = true := by
  cases x with
  | nan => decide
  | number negative rank h =>
    rcases Nat.eq_or_lt_of_le h with rfl | hlt
    · show zero.lt (infinity negative - one) = true ↔ one.lt (infinity negative) = true
      rw [infinity_sub_one]
      cases negative <;> decide
    · rw [sub_one_of_lt hlt, one_lt_number_iff]
      simp only
      split
      · rw [zero_lt_ofRank_iff]
        omega
      · rename_i hne
        rw [ofUnits, zero_lt_ofRank_iff, decide_eq_false_iff_not]
        have := nearestRank_pos (Int.natAbs_pos.mpr hne)
        omega

theorem sub_one_lt_zero (x : Binary64) : (x - one).lt zero = true ↔ x.lt one = true := by
  cases x with
  | nan => decide
  | number negative rank h =>
    rcases Nat.eq_or_lt_of_le h with rfl | hlt
    · show (infinity negative - one).lt zero = true ↔ (infinity negative).lt one = true
      rw [infinity_sub_one]
      cases negative <;> decide
    · rw [sub_one_of_lt hlt, number_lt_one_iff]
      simp only
      split
      · rw [ofRank_lt_zero_iff]
        omega
      · rename_i hne
        rw [ofUnits, ofRank_lt_zero_iff, decide_eq_true_iff]
        have := nearestRank_pos (Int.natAbs_pos.mpr hne)
        omega

/-! ### Quotients -/

theorem one_lt_ofRank_iff (negative : Bool) (rank : Nat) :
    one.lt (ofRank negative rank) = true ↔ negative = false ∧ oneRank < rank := by
  have := oneRank_lt_topRank
  rw [one_eq_number, ofRank, lt, decide_eq_true_iff]
  cases negative <;> simp [signedRank] <;> omega

theorem ofRank_lt_one_iff (negative : Bool) (rank : Nat) :
    (ofRank negative rank).lt one = true ↔ negative = true ∨ rank < oneRank := by
  have := oneRank_lt_topRank
  have : 0 < oneRank := by decide
  rw [one_eq_number, ofRank, lt, decide_eq_true_iff]
  cases negative <;> simp [signedRank] <;> omega

/-- Quotients that are numbers have the sign of the rule of signs, and a rank beyond that of one
exactly if the dividend has the larger magnitude. -/
theorem exists_div_eq_ofRank {s t : Bool} {a b : Nat} (ha : a ≤ topRank) (hb : b ≤ topRank)
    (hpos : 0 < a) (hfinite : ¬ (a = topRank ∧ b = topRank)) :
    ∃ rank, number t b hb / number s a ha = ofRank (t != s) rank ∧
      (oneRank < rank ↔ a < b) ∧ (rank < oneRank ↔ b < a) := by
  have hone := oneRank_lt_topRank
  show ∃ rank, div _ _ = _ ∧ _
  simp only [div]
  by_cases hbtop : b = topRank
  · have hatop : a ≠ topRank := fun h => hfinite ⟨h, hbtop⟩
    refine ⟨topRank, ?_, by omega, by omega⟩
    rw [if_pos hbtop, if_neg hatop, infinity]
  · rw [if_neg hbtop]
    by_cases hatop : a = topRank
    · have : 0 < oneRank := by decide
      exact ⟨0, if_pos hatop, by omega, by omega⟩
    · rw [if_neg hatop, if_neg (Nat.ne_of_gt hpos)]
      exact ⟨_, rfl, oneRank_lt_nearestRank_iff hpos, nearestRank_lt_oneRank_iff hpos⟩

/-- A quotient is above one if a positive number divides a larger one, or a negative number a
smaller one. -/
theorem one_lt_div_iff {x y : Binary64} (hx : x.isZero = false) :
    one.lt (y / x) = true ↔
      zero.lt x = true ∧ x.lt y = true ∨ x.lt zero = true ∧ y.lt x = true := by
  cases x with
  | nan => cases y <;> exact iff_of_false nofun nofun
  | number s a ha =>
    cases y with
    | nan => exact iff_of_false nofun (by simp [lt])
    | number t b hb =>
      have hpos : 0 < a := Nat.pos_of_ne_zero (by simpa [isZero] using hx)
      by_cases hfinite : a = topRank ∧ b = topRank
      · obtain ⟨rfl, rfl⟩ := hfinite
        refine iff_of_false (by decide +revert) ?_
        cases s <;> cases t <;> simp [zero, ofRank, lt, signedRank]
      · obtain ⟨rank, hdiv, hgt, -⟩ := exists_div_eq_ofRank (s := s) (t := t) ha hb hpos hfinite
        rw [hdiv, one_lt_ofRank_iff, hgt]
        cases s <;> cases t <;> simp [zero, ofRank, lt, signedRank] <;> omega

/-- A quotient is below one if a positive number divides a smaller one, or a negative number a
larger one, unless both are infinite. -/
theorem div_lt_one_iff {x y : Binary64} (hx : x.isZero = false)
    (hfinite : x.isFinite = true ∨ y.isFinite = true) :
    (y / x).lt one = true ↔
      zero.lt x = true ∧ y.lt x = true ∨ x.lt zero = true ∧ x.lt y = true := by
  cases x with
  | nan => cases y <;> exact iff_of_false nofun nofun
  | number s a ha =>
    cases y with
    | nan => exact iff_of_false nofun (by simp [lt])
    | number t b hb =>
      have hpos : 0 < a := Nat.pos_of_ne_zero (by simpa [isZero] using hx)
      have hfinite : ¬ (a = topRank ∧ b = topRank) := by
        simp only [isFinite, decide_eq_true_iff] at hfinite
        omega
      obtain ⟨rank, hdiv, -, hlt⟩ := exists_div_eq_ofRank (s := s) (t := t) ha hb hpos hfinite
      rw [hdiv, ofRank_lt_one_iff, hlt]
      cases s <;> cases t <;> simp [zero, ofRank, lt, signedRank] <;> omega

/-- Of two infinities only these are in order. -/
theorem eq_infinity_of_lt {x y : Binary64} (h : x.lt y = true) (hx : x.isFinite = false)
    (hy : y.isFinite = false) : x = infinity true ∧ y = infinity false := by
  cases x with
  | nan => cases h
  | number s a ha =>
    cases y with
    | nan => cases h
    | number t b hb =>
      simp only [isFinite, decide_eq_false_iff_not] at hx hy
      obtain rfl : a = topRank := by omega
      obtain rfl : b = topRank := by omega
      cases s <;> cases t <;> simp [lt, signedRank] at h
      · omega
      · exact ⟨rfl, rfl⟩

end Binary64
end EvalDiff
