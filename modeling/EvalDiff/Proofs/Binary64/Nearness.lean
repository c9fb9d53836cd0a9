import EvalDiff.Proofs.Binary64.Ratio
import Mathlib.Tactic.Linarith
import Mathlib.Tactic.Positivity

/-!
# How far rounding moves a quotient

A quotient that is not below the first full binade is moved by a factor of at most `1 + roundoff`,
up or down, and so two roundings of factors move a product by no more than its square.  A rank and
the next but one differ by more than that, which bounds how far a rounding of the moved product is
from a rounding of the exact one.
-/

namespace EvalDiff
namespace Binary64

/-- Half the distance from one to the next double, 2 to the power -53. -/
def roundoff : ℚ := 1 / (2 * binade : Nat)

theorem roundoff_pos : 0 < roundoff := by norm_num [roundoff, binade]

/-- `Nearest` for a rational number of units. -/
structure Rounds (rank : Nat) (q : ℚ) : Prop where
  above : 2 * q ≤ units rank + units (rank + 1)
  below : units (rank - 1) + units rank ≤ 2 * q
  even_above : 2 * q = units rank + units (rank + 1) → rank % 2 = 0
  even_below : 2 * q = units (rank - 1) + units rank → rank % 2 = 0

variable {rank other num den : Nat} {p q : ℚ}

theorem nearest_iff_rounds (h : 0 < den) : Nearest rank num den ↔ Rounds rank (num / den) := by
  have hden : (0 : ℚ) < den := by exact_mod_cast h
  have hq : 2 * (num / den : ℚ) = (2 * num : Nat) / den := by
    push_cast
    ring
  have hle : ∀ a : Nat, 2 * num ≤ a * den ↔ 2 * (num / den : ℚ) ≤ a := fun a => by
    rw [hq, div_le_iff₀ hden, ← Nat.cast_mul, Nat.cast_le]
  have hge : ∀ a : Nat, a * den ≤ 2 * num ↔ (a : ℚ) ≤ 2 * (num / den) := fun a => by
    rw [hq, le_div_iff₀ hden, ← Nat.cast_mul, Nat.cast_le]
  have heq : ∀ a : Nat, 2 * num = a * den ↔ 2 * (num / den : ℚ) = a := fun a => by
    rw [hq, div_eq_iff (ne_of_gt hden), ← Nat.cast_mul, Nat.cast_inj]
  constructor
  · rintro ⟨ha, hb, ha', hb'⟩
    rw [hle] at ha
    rw [hge] at hb
    rw [heq] at ha' hb'
    push_cast at ha hb ha' hb'
    exact ⟨ha, hb, ha', hb'⟩
  · rintro ⟨ha, hb, ha', hb'⟩
    refine ⟨(hle _).mpr ?_, (hge _).mpr ?_, fun h => ha' ?_, fun h => hb' ?_⟩
    · exact_mod_cast ha
    · exact_mod_cast hb
    · exact_mod_cast (heq _).mp h
    · exact_mod_cast (heq _).mp h

theorem rounds_nearestRank (num : Nat) (h : 0 < den) : Rounds (nearestRank num den) (num / den) :=
  (nearest_iff_rounds h).mp (nearestRank_spec num h)

theorem units_le_units {a b : Nat} (h : a ≤ b) : (units a : ℚ) ≤ units b := by
  exact_mod_cast units_strictMono.monotone h

theorem units_lt_units {a b : Nat} (h : a < b) : (units a : ℚ) < units b := by
  exact_mod_cast units_strictMono h

/-- The rounding is unique: a midpoint has one even rank beside it. -/
theorem Rounds.unique (h : Rounds rank q) (h' : Rounds other q) : rank = other := by
  have key : ∀ {a b : Nat}, Rounds a q → Rounds b q → b ≤ a := by
    intro a b ha hb
    refine Nat.le_of_not_lt fun hlt => ?_
    have hprev := units_le_units (Nat.le_pred_of_lt hlt)
    have hself := units_le_units (Nat.succ_le_of_lt hlt)
    rw [Nat.pred_eq_sub_one] at hprev
    rw [Nat.succ_eq_add_one] at hself
    have heven := ha.even_above (by linarith [ha.above, hb.below])
    have heven' := hb.even_below (by linarith [ha.above, hb.below])
    -- Both lie on the midpoint, so nothing is between them.
    have hnext : b = a + 1 := by
      refine Nat.le_antisymm (Nat.le_of_not_lt fun hgt => ?_) hlt
      have := units_lt_units hgt
      linarith [ha.above, hb.below]
    omega
  exact Nat.le_antisymm (key h' h) (key h h')

/-- Rounding keeps the order. -/
theorem Rounds.mono (hp : Rounds rank p) (hq : Rounds other q) (h : p ≤ q) : rank ≤ other := by
  refine Nat.le_of_not_lt fun hlt => ?_
  have hprev := units_le_units (Nat.le_pred_of_lt hlt)
  have hself := units_le_units (Nat.succ_le_of_lt hlt)
  rw [Nat.pred_eq_sub_one] at hprev
  rw [Nat.succ_eq_add_one] at hself
  obtain rfl : p = q := le_antisymm h (by linarith [hp.below, hq.above])
  exact Nat.ne_of_gt hlt (hp.unique hq)

/-- Up to half a unit is rounded to zero. -/
theorem rounds_zero (h : 0 ≤ q) (hle : 2 * q ≤ 1) : Rounds 0 q := by
  refine ⟨?_, ?_, fun _ => rfl, fun _ => rfl⟩
  · rw [units_zero, units_one]
    norm_num
    exact hle
  · rw [units_zero]
    norm_num
    exact h

theorem Rounds.le_rank (h : Rounds rank q) (hle : (units other : ℚ) ≤ q) : other ≤ rank := by
  refine Nat.le_of_not_lt fun hlt => ?_
  have hself := units_lt_units hlt
  have hnext := units_le_units (Nat.succ_le_of_lt hlt)
  rw [Nat.succ_eq_add_one] at hnext
  linarith [h.above]

theorem Rounds.rank_le (h : Rounds rank q) (hle : q ≤ units other) : rank ≤ other := by
  refine Nat.le_of_not_lt fun hlt => ?_
  have hself := units_lt_units hlt
  have hprev := units_le_units (Nat.le_pred_of_lt hlt)
  rw [Nat.pred_eq_sub_one] at hprev
  linarith [h.below]

theorem Rounds.eq_of_units_eq (h : Rounds rank q) (heq : (units other : ℚ) = q) :
    rank = other :=
  Nat.le_antisymm (h.rank_le (le_of_eq heq.symm)) (h.le_rank (le_of_eq heq))

theorem Rounds.eq_nearestRank (h : Rounds rank (num / den)) (hden : 0 < den) :
    rank = nearestRank num den :=
  h.unique (rounds_nearestRank num hden)

/-! ### Neighbours -/

theorem one_add_roundoff_mul (a : ℚ) :
    (1 + roundoff) * a * (2 * binade : Nat) = (2 * binade + 1 : Nat) * a := by
  have hne : ((2 * binade : Nat) : ℚ) ≠ 0 := by norm_num [binade]
  rw [roundoff, Nat.cast_add, Nat.cast_one]
  field_simp

theorem one_add_roundoff_mul_units_lt (rank : Nat) :
    (1 + roundoff) * units rank < units (rank + 1) := by
  have hpos : (0 : ℚ) < (2 * binade : Nat) := by norm_num [binade]
  refine lt_of_mul_lt_mul_right ?_ (le_of_lt hpos)
  rw [one_add_roundoff_mul, mul_comm (units (rank + 1) : ℚ)]
  exact_mod_cast units_succ_gap rank

theorem sq_one_add_roundoff_mul_units_lt (rank : Nat) :
    (1 + roundoff) ^ 2 * units rank < units (rank + 2) := by
  have hpos := roundoff_pos
  calc (1 + roundoff) ^ 2 * units rank = (1 + roundoff) * ((1 + roundoff) * units rank) := by ring
    _ < (1 + roundoff) * units (rank + 1) :=
        mul_lt_mul_of_pos_left (one_add_roundoff_mul_units_lt rank) (by linarith)
    _ < units (rank + 2) := one_add_roundoff_mul_units_lt (rank + 1)

/-- A number that is higher by at most two factors of `1 + roundoff` is rounded to a rank that is
higher by at most two. -/
theorem Rounds.le_add_two (hp : Rounds rank p) (hq : Rounds other q)
    (h : q ≤ (1 + roundoff) ^ 2 * p) : other ≤ rank + 2 := by
  refine Nat.le_of_not_lt fun hlt => ?_
  have hprev := units_le_units (by omega : rank + 2 ≤ other - 1)
  have hself := units_le_units (by omega : rank + 1 + 2 ≤ other)
  have hgap := sq_one_add_roundoff_mul_units_lt rank
  have hgap' := sq_one_add_roundoff_mul_units_lt (rank + 1)
  have hscaled := mul_le_mul_of_nonneg_left hp.above (sq_nonneg (1 + roundoff))
  rw [mul_add] at hscaled
  linarith [hq.below]

/-! ### One rounding -/

/-- The distance to the next rank is at most the part that the significand tells. -/
theorem units_succ_le {k m g : Nat} (hrank : rank = k * binade + m) (hm : m < 2 * binade)
    (hk : k = 0 ∨ binade ≤ m) (hg : 0 < g) (hgm : g ≤ m) :
    (units (rank + 1) : ℚ) ≤ (1 + 1 / g) * units rank := by
  have hpos : (0 : ℚ) < g := by exact_mod_cast hg
  have hmul : (m + 1) * 2 ^ k * g ≤ (g + 1) * (m * 2 ^ k) := by
    calc (m + 1) * 2 ^ k * g = (m * g + g) * 2 ^ k := by ring
      _ ≤ (m * g + m) * 2 ^ k := Nat.mul_le_mul_right _ (Nat.add_le_add_left hgm _)
      _ = (g + 1) * (m * 2 ^ k) := by ring
  rw [hrank, Nat.add_assoc, units_add (Nat.le_of_lt hm) hk, units_add hm (by omega)]
  refine le_of_mul_le_mul_right ?_ hpos
  have hfactor : (1 + 1 / (g : ℚ)) * (m * 2 ^ k : Nat) * g = ((g + 1) * (m * 2 ^ k) : Nat) := by
    push_cast
    field_simp
  rw [hfactor]
  exact_mod_cast hmul

/-- A rounding is below what was rounded by at most half the distance to the next rank. -/
theorem Rounds.le_mul_units (h : Rounds rank q) {k m g : Nat} (hrank : rank = k * binade + m)
    (hm : m < 2 * binade) (hk : k = 0 ∨ binade ≤ m) (hg : 0 < g) (hgm : g ≤ m) :
    q ≤ (1 + 1 / (2 * g : Nat)) * units rank := by
  have hsucc := units_succ_le hrank hm hk hg hgm
  have hhalf : (1 / (2 * g : Nat) : ℚ) = 1 / g / 2 := by
    push_cast
    ring
  rw [hhalf]
  linarith [h.above]

/-- A quotient of a significand by a larger one is in the binade below, and its significand is
not below their quotient there. -/
theorem Rounds.le_mul_units_of_quotient {k m d c : Nat} (hm : binade ≤ m) (hd : m < d)
    (hc : binade ≤ c) (hc' : c ≤ 2 * binade) (hmul : c * d ≤ binade * (2 * binade))
    (h : Rounds rank ((m * (2 * binade) * 2 ^ k : Nat) / d)) :
    ((m * (2 * binade) * 2 ^ k : Nat) / d : ℚ) ≤ (1 + 1 / (2 * c : Nat)) * units rank := by
  have hpos : (0 : ℚ) < d := by exact_mod_cast Nat.zero_lt_of_lt hd
  have hbelow : k * binade + c ≤ rank := by
    refine h.le_rank ?_
    rw [le_div_iff₀ hpos, units_add hc' (Or.inr hc)]
    have : c * 2 ^ k * d ≤ m * (2 * binade) * 2 ^ k := by
      calc c * 2 ^ k * d = c * d * 2 ^ k := by ring
        _ ≤ m * (2 * binade) * 2 ^ k :=
          Nat.mul_le_mul_right _ (hmul.trans (Nat.mul_le_mul_right _ hm))
    exact_mod_cast this
  rcases Nat.lt_or_ge rank (k * binade + 2 * binade) with hlt | hge
  · exact h.le_mul_units (k := k) (m := rank - k * binade) (by omega) (by omega)
      (Or.inr (by omega)) (Nat.lt_of_lt_of_le (by decide) hc) (by omega)
  · -- At the end of the binade the rounding is not below the quotient.
    have habove : ((m * (2 * binade) * 2 ^ k : Nat) / d : ℚ) ≤ units (k * binade + 2 * binade) := by
      rw [div_le_iff₀ hpos, units_add (Nat.le_refl _) (Or.inr (by decide))]
      have : m * (2 * binade) * 2 ^ k ≤ 2 * binade * 2 ^ k * d := by
        calc m * (2 * binade) * 2 ^ k = 2 * binade * 2 ^ k * m := by ring
          _ ≤ 2 * binade * 2 ^ k * d := Nat.mul_le_mul_left _ (Nat.le_of_lt hd)
      exact_mod_cast this
    have hpart : (0 : ℚ) ≤ 1 / (2 * c : Nat) := by positivity
    exact (habove.trans (units_le_units hge)).trans
      (le_mul_of_one_le_left (Nat.cast_nonneg _) (by linarith))

theorem exists_significand_of_binade_le (h : binade ≤ rank) :
    ∃ k m, rank = k * binade + m ∧ m < 2 * binade ∧ binade ≤ m := by
  obtain ⟨k, m, hrank, hm, hk⟩ := exists_significand rank
  refine ⟨k, m, hrank, hm, hk.elim (fun h0 => ?_) id⟩
  rw [h0, Nat.zero_mul, Nat.zero_add] at hrank
  exact hrank ▸ h

theorem units_binade : units binade = binade := by decide

theorem Rounds.binade_le (h : Rounds rank q) (hq : (binade : ℚ) ≤ q) : binade ≤ rank :=
  h.le_rank (by rwa [units_binade])

theorem Rounds.le_one_add_roundoff_mul (h : Rounds rank q) (hq : (binade : ℚ) ≤ q) :
    q ≤ (1 + roundoff) * units rank := by
  obtain ⟨k, m, hrank, hm, hge⟩ := exists_significand_of_binade_le (h.binade_le hq)
  exact h.le_mul_units hrank hm (Or.inr hge) (by decide) hge

theorem Rounds.units_le_one_add_roundoff_mul (h : Rounds rank q) (hq : (binade : ℚ) ≤ q) :
    units rank ≤ (1 + roundoff) * q := by
  have hpos := roundoff_pos
  have hqpos : 0 < q := lt_of_lt_of_le (by norm_num [binade]) hq
  rcases Nat.eq_or_lt_of_le (h.binade_le hq) with hfirst | hlt
  · rw [← hfirst, units_binade]
    nlinarith
  · -- The rank before it lies in a full binade too.
    obtain ⟨k, m, hrank, hm, hge⟩ :=
      exists_significand_of_binade_le (by omega : binade ≤ rank - 1)
    have hsucc := units_succ_le hrank hm (Or.inr hge) (by decide) hge
    have htwo : (1 / (binade : ℚ)) = 2 * roundoff := by norm_num [roundoff, binade]
    have hnonneg : (0 : ℚ) ≤ units (rank - 1) := Nat.cast_nonneg _
    rw [Nat.sub_add_cancel (by omega), htwo] at hsucc
    have hbelow := mul_le_mul_of_nonneg_left h.below (by linarith : 0 ≤ 1 + roundoff)
    nlinarith [mul_nonneg (sq_nonneg roundoff) hnonneg]

/-! ### Factors that are off by a rounding -/

/-- Two numbers differ by a factor of at most `1 + roundoff`. -/
structure Close (p q : ℚ) : Prop where
  pos : 0 < q
  le : p ≤ (1 + roundoff) * q
  ge : q ≤ (1 + roundoff) * p

variable {p' q' : ℚ}

theorem Close.pos_left (h : Close p q) : 0 < p := by
  have hu := roundoff_pos
  refine lt_of_not_ge fun hle => ?_
  have := mul_nonpos_of_nonneg_of_nonpos (by linarith : 0 ≤ 1 + roundoff) hle
  linarith [h.ge, h.pos]

theorem Close.symm (h : Close p q) : Close q p := ⟨h.pos_left, h.ge, h.le⟩

theorem Close.mul_le (h : Close p q) (h' : Close p' q') :
    p * p' ≤ (1 + roundoff) ^ 2 * (q * q') := by
  have hu := roundoff_pos
  calc p * p' ≤ ((1 + roundoff) * q) * ((1 + roundoff) * q') :=
        mul_le_mul h.le h'.le (le_of_lt h'.pos_left)
          (mul_nonneg (by linarith) (le_of_lt h.pos))
    _ = (1 + roundoff) ^ 2 * (q * q') := by ring

theorem Close.div_le (h : Close p q) (h' : Close p' q') :
    p / p' ≤ (1 + roundoff) ^ 2 * (q / q') := by
  rw [← mul_div_assoc, div_le_div_iff₀ h'.pos_left h'.pos]
  calc p * q' ≤ (1 + roundoff) ^ 2 * (q * p') := h.mul_le h'.symm
    _ = (1 + roundoff) ^ 2 * q * p' := by ring

theorem Rounds.close (h : Rounds rank q) (hq : (binade : ℚ) ≤ q) : Close (units rank) q :=
  ⟨lt_of_lt_of_le (by norm_num [binade]) hq, h.units_le_one_add_roundoff_mul hq,
    h.le_one_add_roundoff_mul hq⟩

/-- Two ranks are at most two places apart. -/
def Near (a b : Nat) : Prop := a ≤ b + 2 ∧ b ≤ a + 2

theorem Rounds.near (hp : Rounds rank p) (hq : Rounds other q)
    (h : p ≤ (1 + roundoff) ^ 2 * q) (h' : q ≤ (1 + roundoff) ^ 2 * p) : Near rank other :=
  ⟨hq.le_add_two hp h, hp.le_add_two hq h'⟩

end Binary64
end EvalDiff
