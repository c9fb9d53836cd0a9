import EvalDiff.Binary64.Basic
import Mathlib.Order.Monotone.Basic
import Mathlib.Tactic.Ring

/-!
# Ranks and their values

A rank is written as `k * binade + m`, where `m` is its significand and `2 ^ k` the distance to
the next rank.  With that every fact about `units` is one about the products `m * 2 ^ k`.
-/

namespace EvalDiff
namespace Binary64

theorem binade_eq : binade = 2 ^ 52 := by decide

/-- A significand may reach the first one of the next binade, where both ways to write the rank
agree. -/
theorem units_add {k m : Nat} (hm : m ≤ 2 * binade) (hk : k = 0 ∨ binade ≤ m) :
    units (k * binade + m) = m * 2 ^ k := by
  have hpos : 0 < binade := by decide
  have hdiv : (k * binade + m) / binade = k + m / binade := by
    rw [Nat.mul_comm, Nat.mul_add_div hpos]
  simp only [units, hdiv]
  show _ * 2 ^ _ = _
  rcases Nat.lt_or_ge m binade with hlt | hge
  · have hk : k = 0 := by omega
    rw [Nat.div_eq_of_lt hlt, hk, Nat.zero_mul, Nat.zero_add]
    simp
  rcases Nat.lt_or_ge m (2 * binade) with hlt | hge'
  · have hq : m / binade = 1 := Nat.div_eq_of_lt_le (by omega) (by omega)
    rw [hq, Nat.add_sub_cancel, Nat.add_sub_cancel_left]
  · have hm : m = 2 * binade := by omega
    rw [hm, Nat.mul_div_cancel _ hpos, show k + 2 - 1 = k + 1 from rfl,
      show k * binade + 2 * binade = binade + (k + 1) * binade by ring, Nat.add_sub_cancel,
      Nat.pow_succ]
    ring

theorem exists_significand (rank : Nat) :
    ∃ k m, rank = k * binade + m ∧ m < 2 * binade ∧ (k = 0 ∨ binade ≤ m) := by
  have hpos : 0 < binade := by decide
  have hmod := Nat.mod_lt rank hpos
  have hrank := Nat.div_add_mod' rank binade
  rcases Nat.eq_zero_or_pos (rank / binade) with h | h
  · rw [h] at hrank
    exact ⟨0, rank, by omega, by omega, Or.inl rfl⟩
  · obtain ⟨k, hk⟩ := Nat.exists_eq_succ_of_ne_zero (Nat.ne_of_gt h)
    rw [hk, Nat.succ_mul] at hrank
    exact ⟨k, binade + rank % binade, by omega, by omega, Or.inr (Nat.le_add_right _ _)⟩

theorem units_zero : units 0 = 0 := by decide

theorem units_one : units 1 = 1 := by decide

theorem units_lt_units_succ (rank : Nat) : units rank < units (rank + 1) := by
  obtain ⟨k, m, rfl, hm, hk⟩ := exists_significand rank
  rw [Nat.add_assoc, units_add (Nat.le_of_lt hm) hk, units_add hm (by omega)]
  exact Nat.mul_lt_mul_of_pos_right (Nat.lt_succ_self m) (Nat.two_pow_pos k)

theorem units_strictMono : StrictMono units := strictMono_nat_of_lt_succ units_lt_units_succ

end Binary64
end EvalDiff
