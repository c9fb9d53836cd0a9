import EvalDiff.Binary64.Arithmetic
import EvalDiff.Proofs.Binary64.Units
import Mathlib.Tactic.GCongr

/-!
# Rounding to the nearest rank

A quotient of units is rounded to the rank whose neighbourhood, bounded by the midpoints to the
ranks beside it, holds the quotient.  `nearestRank_spec` proves that of the arithmetic on
significands, and what is used of rounding elsewhere follows from it and from the order of the
ranks.
-/

namespace EvalDiff

namespace Decimal

/-- A quotient half way between two integers is rounded to the even one. -/
theorem even_of_tie (num : Nat) {den c : Nat} (h : 0 < den)
    (ht : 2 * num = (2 * c + 1) * den) : roundHalfEven num den % 2 = 0 := by
  have hr := Nat.mod_lt num h
  have hq : den * (num / den) + num % den = num := Nat.div_add_mod num den
  have hodd : (2 * c + 1) * den = 2 * (c * den) + den := by rw [Nat.add_mul, Nat.mul_assoc]; omega
  have hc : num / den = c := by
    refine Nat.div_eq_of_lt_le (by omega) ?_
    rw [Nat.succ_mul]
    omega
  rw [hc, Nat.mul_comm] at hq
  simp only [roundHalfEven]
  rw [if_neg (by omega), if_neg (by omega)]
  omega

theorem even_of_tie_below (num : Nat) {den c : Nat} (h : 0 < den)
    (ht : 2 * num + den = 2 * c * den) : roundHalfEven num den % 2 = 0 := by
  cases c with
  | zero =>
    rw [Nat.mul_zero, Nat.zero_mul] at ht
    omega
  | succ c =>
    refine even_of_tie num h (c := c) ?_
    rw [Nat.mul_succ, Nat.add_mul] at ht
    rw [Nat.add_mul]
    omega

end Decimal

namespace Binary64

open Decimal

/-- The quotient `num / den` of units lies between the midpoints around a rank, and on a
midpoint only if the rank is even. -/
structure Nearest (rank num den : Nat) : Prop where
  above : 2 * num ≤ (units rank + units (rank + 1)) * den
  below : (units (rank - 1) + units rank) * den ≤ 2 * num
  even_above : 2 * num = (units rank + units (rank + 1)) * den → rank % 2 = 0
  even_below : 2 * num = (units (rank - 1) + units rank) * den → rank % 2 = 0

/-- The significand that a quotient is rounded to lies in the binade of the quotient. -/
theorem significand_bounds (num : Nat) {den : Nat} (h : 0 < den) :
    let k := Nat.log2 (num / den) - 52
    num < 2 * binade * (den * 2 ^ k) ∧ (k = 0 ∨ binade * (den * 2 ^ k) ≤ num) := by
  intro k
  have hq : num < (num / den + 1) * den := by
    have := Nat.lt_div_mul_add h (a := num)
    rw [Nat.succ_mul]
    exact this
  have hlog : num / den < 2 ^ (k + 53) := by
    refine Nat.lt_of_lt_of_le Nat.lt_log2_self (Nat.pow_le_pow_right (by decide) ?_)
    omega
  constructor
  · calc num < (num / den + 1) * den := hq
      _ ≤ 2 ^ (k + 53) * den := Nat.mul_le_mul_right den hlog
      _ = 2 * binade * (den * 2 ^ k) := by rw [binade_eq]; ring
  · rcases Nat.eq_zero_or_pos k with hk | hk
    · exact Or.inl hk
    · right
      have hne : num / den ≠ 0 := by
        intro h0
        simp [k, h0] at hk
      calc binade * (den * 2 ^ k) = 2 ^ (k + 52) * den := by rw [binade_eq]; ring
        _ = 2 ^ Nat.log2 (num / den) * den := by rw [show k + 52 = Nat.log2 (num / den) by omega]
        _ ≤ num / den * den := Nat.mul_le_mul_right den (Nat.log2_self_le hne)
        _ ≤ num := Nat.div_mul_le_self num den

theorem rank_mod_two (k m : Nat) : (k * binade + m) % 2 = m % 2 := by
  have h : binade = 2 * 2 ^ 51 := by decide
  rw [h, Nat.mul_left_comm, Nat.mul_add_mod]

/-- Above a rank: the next rank is one significand further on, except at the end of a binade,
which the quotient does not reach. -/
theorem above_of_significand {rank k m num den : Nat} (hr : rank = k * binade + m)
    (hm : m ≤ 2 * binade) (hk : k = 0 ∨ binade ≤ m)
    (hlt : num < 2 * binade * (den * 2 ^ k))
    (habove : 2 * num ≤ (2 * m + 1) * (den * 2 ^ k))
    (htie : 2 * num = (2 * m + 1) * (den * 2 ^ k) → m % 2 = 0) :
    2 * num ≤ (units rank + units (rank + 1)) * den ∧
      (2 * num = (units rank + units (rank + 1)) * den → rank % 2 = 0) := by
  have hu : units rank = m * 2 ^ k := by rw [hr, units_add hm hk]
  rcases Nat.lt_or_ge m (2 * binade) with h | h
  · have hnext : units (rank + 1) = (m + 1) * 2 ^ k := by
      rw [hr, Nat.add_assoc, units_add h (by omega)]
    have hsum : (units rank + units (rank + 1)) * den = (2 * m + 1) * (den * 2 ^ k) := by
      rw [hu, hnext]
      ring
    rw [hsum, hr, rank_mod_two]
    exact ⟨habove, htie⟩
  · have hstrict : 2 * num < (units rank + units (rank + 1)) * den := by
      calc 2 * num < 2 * (2 * binade * (den * 2 ^ k)) := Nat.mul_lt_mul_of_pos_left hlt (by decide)
        _ ≤ 2 * (m * (den * 2 ^ k)) := by gcongr
        _ = (units rank + units rank) * den := by rw [hu]; ring
        _ ≤ (units rank + units (rank + 1)) * den := by
          gcongr
          exact Nat.le_of_lt (units_lt_units_succ rank)
    exact ⟨Nat.le_of_lt hstrict, fun h => absurd h (Nat.ne_of_lt hstrict)⟩

/-- Below a rank: the rank before is one significand back, except at the start of a binade, and
there the quotient is not below the rank. -/
theorem below_of_significand {rank k m num den : Nat} (hr : rank = k * binade + m)
    (hden : 0 < den) (hm : m ≤ 2 * binade) (hk : k = 0 ∨ binade ≤ m)
    (hge : k = 0 ∨ binade * (den * 2 ^ k) ≤ num)
    (hbelow : 2 * m * (den * 2 ^ k) ≤ 2 * num + den * 2 ^ k)
    (htie : 2 * num + den * 2 ^ k = 2 * m * (den * 2 ^ k) → m % 2 = 0) :
    (units (rank - 1) + units rank) * den ≤ 2 * num ∧
      (2 * num = (units (rank - 1) + units rank) * den → rank % 2 = 0) := by
  have hu : units rank = m * 2 ^ k := by rw [hr, units_add hm hk]
  have hpos : 0 < binade := by decide
  rcases Nat.eq_zero_or_pos m with h0 | h0
  · have hrank : rank = 0 := by rw [hr, hk.resolve_right (by omega), h0, Nat.zero_mul]
    rw [hrank, units_zero, Nat.zero_add, Nat.zero_mul]
    exact ⟨Nat.zero_le _, fun _ => rfl⟩
  by_cases hfirst : k ≠ 0 ∧ m = binade
  · have hprev : units (rank - 1) < units rank := units_strictMono (by omega)
    have hstrict : (units (rank - 1) + units rank) * den < 2 * num := by
      calc (units (rank - 1) + units rank) * den < (units rank + units rank) * den := by
            gcongr
        _ = 2 * (binade * (den * 2 ^ k)) := by rw [hu, hfirst.2]; ring
        _ ≤ 2 * num := Nat.mul_le_mul_left 2 (hge.resolve_left hfirst.1)
    exact ⟨Nat.le_of_lt hstrict, fun h => absurd h.symm (Nat.ne_of_lt hstrict)⟩
  · obtain ⟨l, rfl⟩ := Nat.exists_eq_add_one_of_ne_zero (Nat.ne_of_gt h0)
    have hrank : rank - 1 = k * binade + l := by rw [hr, ← Nat.add_assoc, Nat.add_sub_cancel]
    have hprev : units (rank - 1) = l * 2 ^ k := by
      rw [hrank, units_add (by omega) (by omega)]
    have hsum : (units (rank - 1) + units rank) * den + den * 2 ^ k =
        2 * (l + 1) * (den * 2 ^ k) := by
      rw [hu, hprev]
      ring
    rw [hr, rank_mod_two, ← hr]
    rw [← hsum] at hbelow htie
    exact ⟨by omega, fun h => htie (by omega)⟩

theorem nearestRank_spec (num : Nat) {den : Nat} (h : 0 < den) :
    Nearest (nearestRank num den) num den := by
  obtain ⟨hlt, hge⟩ := significand_bounds num h
  unfold nearestRank
  simp only [show ∀ n, Nat.pow 2 n = 2 ^ n from fun _ => rfl]
  generalize Nat.log2 (num / den) - 52 = k at hlt hge ⊢
  have hd : 0 < den * 2 ^ k := Nat.mul_pos h (Nat.two_pow_pos k)
  have hle := two_mul_roundHalfEven_mul_le num hd
  have hge' := two_mul_le_roundHalfEven_mul num hd
  have habove := even_of_tie num hd (c := roundHalfEven num (den * 2 ^ k))
  have hbelow := even_of_tie_below num hd (c := roundHalfEven num (den * 2 ^ k))
  generalize roundHalfEven num (den * 2 ^ k) = m at hle hge' habove hbelow ⊢
  rw [← Nat.mul_assoc] at hle hge'
  have hsucc : (2 * m + 1) * (den * 2 ^ k) = 2 * m * (den * 2 ^ k) + den * 2 ^ k := Nat.succ_mul _ _
  have hm : m ≤ 2 * binade := by
    have : 2 * m * (den * 2 ^ k) < (4 * binade + 1) * (den * 2 ^ k) := by
      have : (4 * binade + 1) * (den * 2 ^ k) =
          2 * (2 * binade * (den * 2 ^ k)) + den * 2 ^ k := by ring
      omega
    have := Nat.lt_of_mul_lt_mul_right this
    omega
  have hk : k = 0 ∨ binade ≤ m := by
    refine hge.imp_right fun hge => ?_
    have : 2 * binade * (den * 2 ^ k) ≤ (2 * m + 1) * (den * 2 ^ k) := by
      have : 2 * binade * (den * 2 ^ k) = 2 * (binade * (den * 2 ^ k)) := Nat.mul_assoc _ _ _
      omega
    have := Nat.le_of_mul_le_mul_right this hd
    omega
  obtain ⟨ha, ha'⟩ := above_of_significand rfl hm hk hlt (by omega) habove
  obtain ⟨hb, hb'⟩ := below_of_significand rfl h hm hk hge hle hbelow
  exact ⟨ha, hb, ha', hb'⟩

/-! ### Order and exactness -/

theorem nearestRank_le {rank num den : Nat} (h : 0 < den) (hle : num ≤ units rank * den) :
    nearestRank num den ≤ rank := by
  refine Nat.le_of_not_lt fun hlt => ?_
  have hprev : units rank ≤ units (nearestRank num den - 1) :=
    units_strictMono.monotone (by omega)
  have hself : units rank < units (nearestRank num den) := units_strictMono hlt
  have : 2 * num < 2 * num := by
    calc 2 * num ≤ (units rank + units rank) * den := by rw [Nat.add_mul]; omega
      _ < (units (nearestRank num den - 1) + units (nearestRank num den)) * den :=
        Nat.mul_lt_mul_of_pos_right (by omega) h
      _ ≤ 2 * num := (nearestRank_spec num h).below
  omega

theorem le_nearestRank {rank num den : Nat} (h : 0 < den) (hle : units rank * den ≤ num) :
    rank ≤ nearestRank num den := by
  refine Nat.le_of_not_lt fun hlt => ?_
  have hnext : units (nearestRank num den + 1) ≤ units rank :=
    units_strictMono.monotone (by omega)
  have hself : units (nearestRank num den) < units rank := units_strictMono hlt
  have : 2 * num < 2 * num := by
    calc 2 * num ≤ (units (nearestRank num den) + units (nearestRank num den + 1)) * den :=
        (nearestRank_spec num h).above
      _ < (units rank + units rank) * den := Nat.mul_lt_mul_of_pos_right (by omega) h
      _ ≤ 2 * num := by rw [Nat.add_mul]; omega
  omega

/-- A value that is a rank's own is not changed by rounding. -/
theorem nearestRank_units_mul (rank : Nat) {den : Nat} (h : 0 < den) :
    nearestRank (units rank * den) den = rank :=
  Nat.le_antisymm (nearestRank_le h (Nat.le_refl _)) (le_nearestRank h (Nat.le_refl _))

theorem nearestRank_zero {den : Nat} (h : 0 < den) : nearestRank 0 den = 0 :=
  Nat.le_zero.mp (nearestRank_le h (Nat.zero_le _))

/-! ### Distances -/

variable {rank num den : Nat}

theorem Nearest.dist_le (h : Nearest rank num den) (other : Nat) :
    ((units rank * den : Nat) - (num : Int)).natAbs ≤
      ((units other * den : Nat) - (num : Int)).natAbs := by
  rcases Nat.lt_trichotomy other rank with hlt | rfl | hgt
  · have hprev := Nat.mul_le_mul_right den (units_strictMono.monotone (Nat.le_pred_of_lt hlt))
    have hself := Nat.mul_le_mul_right den (Nat.le_of_lt (units_strictMono hlt))
    have hbelow := h.below
    rw [Nat.add_mul] at hbelow
    rw [Nat.pred_eq_sub_one] at hprev
    omega
  · exact Nat.le_refl _
  · have hnext := Nat.mul_le_mul_right den (units_strictMono.monotone (Nat.succ_le_of_lt hgt))
    have hself := Nat.mul_le_mul_right den (Nat.le_of_lt (units_strictMono hgt))
    have habove := h.above
    rw [Nat.add_mul] at habove
    rw [Nat.succ_eq_add_one] at hnext
    omega

theorem Nearest.even_of_dist_eq (h : Nearest rank num den) (hden : 0 < den) (other : Nat)
    (hne : other ≠ rank)
    (heq : ((units other * den : Nat) - (num : Int)).natAbs =
      ((units rank * den : Nat) - (num : Int)).natAbs) : rank % 2 = 0 := by
  rcases Nat.lt_or_gt_of_ne hne with hlt | hgt
  · have hprev := Nat.mul_le_mul_right den (units_strictMono.monotone (Nat.le_pred_of_lt hlt))
    have hself := Nat.mul_lt_mul_of_pos_right (units_strictMono hlt) hden
    have hbelow := h.below
    refine h.even_below ?_
    rw [Nat.add_mul] at hbelow ⊢
    rw [Nat.pred_eq_sub_one] at hprev
    omega
  · have hnext := Nat.mul_le_mul_right den (units_strictMono.monotone (Nat.succ_le_of_lt hgt))
    have hself := Nat.mul_lt_mul_of_pos_right (units_strictMono hgt) hden
    have habove := h.above
    refine h.even_above ?_
    rw [Nat.add_mul] at habove ⊢
    rw [Nat.succ_eq_add_one] at hnext
    omega

/-- Values below zero are farther away than zero. -/
theorem Nearest.dist_le_add (h : Nearest rank num den) (other : Nat) :
    ((units rank * den : Nat) - (num : Int)).natAbs ≤ num + units other * den := by
  have := h.dist_le 0
  rw [units_zero, Nat.zero_mul] at this
  omega

end Binary64
end EvalDiff
