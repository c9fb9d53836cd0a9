import EvalDiff.Json.Number
import EvalDiff.Proofs.Binary64.Shortest

/-!
# How far off a number is read

A number is read by rounding its digits and a power of ten, and then their product or quotient.
That moves it by two roundings before the last one, so the double that is read is at most two
places away from the one nearest to the number.  Below 10^-308 a division by 10^308 comes in
between.  The double nearest to that power is a little above it, by far less than a rounding may
be off, and the two roundings that are left are never both at their worst.
-/

namespace EvalDiff
namespace Json

open Decimal Binary64

variable {n a b rank : Nat} {e : Int}

/-! ### Doubles that occur -/

/-- The rank of the double nearest to 10^308. -/
def rank308 : Nat := 0x7fe1ccf385ebc8a0

/-- The significand of that double. -/
def significand308 : Nat := 5010420900022432

/-- Quotients of smaller significands by that one do not have smaller significands than this. -/
def significandBelow : Nat := 2 ^ 105 / significand308

theorem rank308_lt_topRank : rank308 < topRank := by decide

/-- The double is at or above 10^308, but by so little that there is room for a rounding of half the
size, on either side of the division, beside a full one. -/
theorem rank308_exact :
    10 ^ 308 * unitsPerOne ≤ units rank308 ∧
      nearestRank (Nat.pow 10 308 * unitsPerOne) 1 = rank308 ∧
      (2 * binade + 1) * (2 * significandBelow + 1) * units rank308 * (2 * binade) ^ 2 ≤
        (2 * binade + 1) ^ 2 * (10 ^ 308 * unitsPerOne) * (2 * binade * (2 * significandBelow)) ∧
      (2 * significand308 + 1) * (2 * binade + 1) * units rank308 * (2 * binade) ^ 2 ≤
        (2 * binade + 1) ^ 2 * (10 ^ 308 * unitsPerOne) * (2 * significand308 * (2 * binade)) := by
  decide +kernel

theorem ten_pow_308_le_units : 10 ^ 308 * unitsPerOne ≤ units rank308 := rank308_exact.1

theorem nearestRank_ten_pow_308 : nearestRank (Nat.pow 10 308 * unitsPerOne) 1 = rank308 :=
  rank308_exact.2.1

theorem unitsPerOne_le_units_rank308 : unitsPerOne ≤ units rank308 := by
  rw [← units_oneRank]
  exact units_strictMono.monotone (by decide)

theorem exists_ofNat_eq {k : Nat} (h : n ≤ 10 ^ k) (hk : k ≤ 308) :
    ∃ r, ∃ hr : r < topRank, ofNat n = .number false r (Nat.le_of_lt hr) ∧
      Rounds r (n * unitsPerOne) := by
  have hle : nearestRank (n * unitsPerOne) 1 ≤ rank308 := by
    refine nearestRank_le Nat.one_pos ?_
    rw [Nat.mul_one]
    have hpow : n ≤ 10 ^ 308 := h.trans (pow_le_pow_right₀ (by decide) hk)
    exact (Nat.mul_le_mul_right unitsPerOne hpow).trans ten_pow_308_le_units
  have hlt := Nat.lt_of_le_of_lt hle rank308_lt_topRank
  refine ⟨_, hlt, ofUnits_of_lt false hlt, ?_⟩
  have := rounds_nearestRank (n * unitsPerOne) Nat.one_pos
  rwa [Nat.cast_one, div_one, Nat.cast_mul] at this

theorem exists_powerOfTen_eq {k : Nat} (h : k ≤ 308) :
    ∃ r, ∃ hr : r < topRank, powerOfTen k = .number false r (Nat.le_of_lt hr) ∧
      Rounds r ((10 : ℚ) ^ k * unitsPerOne) := by
  obtain ⟨r, hr, hofNat, hrounds⟩ := exists_ofNat_eq (Nat.le_refl (10 ^ k)) h
  rw [Nat.cast_pow, Nat.cast_ofNat] at hrounds
  exact ⟨r, hr, hofNat, hrounds⟩

theorem exists_div_eq (ha : a < topRank) (hb : b < topRank) (hone : unitsPerOne ≤ units b) :
    ∃ r, ∃ hr : r < topRank,
      Binary64.number false a (Nat.le_of_lt ha) / Binary64.number false b (Nat.le_of_lt hb) =
        .number false r (Nat.le_of_lt hr) ∧
      Rounds r (units a * unitsPerOne / units b) := by
  have hpos : 0 < units b := Nat.lt_of_lt_of_le unitsPerOne_pos hone
  have hle : nearestRank (units a * unitsPerOne) (units b) ≤ a :=
    nearestRank_le hpos (Nat.mul_le_mul_left _ hone)
  have hlt := Nat.lt_of_le_of_lt hle ha
  refine ⟨_, hlt, (div_eq_ofUnits ha hb hpos).trans (ofUnits_of_lt false hlt), ?_⟩
  have := rounds_nearestRank (units a * unitsPerOne) hpos
  rwa [Nat.cast_mul] at this

theorem exists_mul_eq (ha : a < topRank) (hb : b < topRank) :
    ∃ r, Binary64.number false a (Nat.le_of_lt ha) * Binary64.number false b (Nat.le_of_lt hb) =
        .ofRank false r ∧
      Rounds r (units a * units b / unitsPerOne) := by
  have hmul : Binary64.number false a (Nat.le_of_lt ha) *
      Binary64.number false b (Nat.le_of_lt hb) =
      ofUnits false (units a * units b) unitsPerOne := by
    show mul _ _ = _
    simp only [mul, Nat.ne_of_lt ha, Nat.ne_of_lt hb, or_self, if_false]
    rfl
  refine ⟨_, hmul, ?_⟩
  have := rounds_nearestRank (units a * units b) unitsPerOne_pos
  rwa [Nat.cast_mul] at this

theorem binade_le_mul_unitsPerOne {q : ℚ} (h : 1 ≤ q) : (binade : ℚ) ≤ q * unitsPerOne := by
  have hb : binade ≤ unitsPerOne := by
    rw [← units_oneRank, ← units_binade]
    exact units_strictMono.monotone (by decide)
  have hb' : (binade : ℚ) ≤ unitsPerOne := by exact_mod_cast hb
  exact hb'.trans (le_mul_of_one_le_left (Nat.cast_nonneg _) h)

theorem one_le_ten_pow (k : Nat) : (1 : ℚ) ≤ 10 ^ k := one_le_pow₀ (by norm_num)

theorem unitsPerOne_le_units {k r : Nat} (h : Rounds r ((10 : ℚ) ^ k * unitsPerOne)) :
    unitsPerOne ≤ units r := by
  rw [← units_oneRank]
  refine units_strictMono.monotone (h.le_rank ?_)
  rw [units_oneRank]
  exact le_mul_of_one_le_left (Nat.cast_nonneg _) (one_le_ten_pow k)

theorem units_eq_of_le {r : Nat} (h : Rounds r (n * unitsPerOne)) (hn : n ≤ 2 ^ 53) :
    (units r : ℚ) = n * unitsPerOne := by
  obtain ⟨s, -, hunits⟩ := exists_units_eq hn
  have heq : (units s : ℚ) = n * unitsPerOne := by exact_mod_cast hunits
  rw [h.eq_of_units_eq heq, heq]

theorem units_nearestRank_ten_pow :
    ∀ k < 23, units (nearestRank (10 ^ k * unitsPerOne) 1) = 10 ^ k * unitsPerOne := by
  decide +kernel

theorem units_powerOfTen_eq {k r : Nat} (h : Rounds r ((10 : ℚ) ^ k * unitsPerOne)) (hk : k ≤ 22) :
    (units r : ℚ) = 10 ^ k * unitsPerOne := by
  have heq : (units (nearestRank (10 ^ k * unitsPerOne) 1) : ℚ) = 10 ^ k * unitsPerOne := by
    exact_mod_cast units_nearestRank_ten_pow k (by omega)
  rw [h.eq_of_units_eq heq, heq]

/-! ### One step -/

theorem unitsPerOne_cast_pos : (0 : ℚ) < unitsPerOne := by exact_mod_cast unitsPerOne_pos

/-- Divided by a power of ten. -/
theorem div_powerOfTen_near {k : Nat} (hn : 0 < n) (hn' : n ≤ 10 ^ 18) (hk : k ≤ 308)
    (h : Rounds rank (n * unitsPerOne / 10 ^ k)) :
    ∃ r, ∃ hr : r < topRank,
      ofNat n / powerOfTen k = .number false r (Nat.le_of_lt hr) ∧ Near r rank ∧
      (n ≤ 2 ^ 53 → k ≤ 22 → r = rank) := by
  have hu := unitsPerOne_cast_pos
  have hone : (1 : ℚ) ≤ n := by exact_mod_cast hn
  obtain ⟨a, ha, hofNat, hna⟩ := exists_ofNat_eq hn' (by decide)
  obtain ⟨b, hb, hpower, hkb⟩ := exists_powerOfTen_eq hk
  obtain ⟨r, hr, hdiv, hrounds⟩ := exists_div_eq ha hb (unitsPerOne_le_units hkb)
  have hca := hna.close (binade_le_mul_unitsPerOne hone)
  have hcb := hkb.close (binade_le_mul_unitsPerOne (one_le_ten_pow k))
  have hp : (units a * unitsPerOne / units b : ℚ) = units a / units b * unitsPerOne :=
    mul_div_right_comm _ _ _
  have hq : (n * unitsPerOne / 10 ^ k : ℚ) =
      n * unitsPerOne / (10 ^ k * unitsPerOne) * unitsPerOne := by
    field_simp
  rw [hofNat, hpower, hdiv]
  rw [hp] at hrounds
  rw [hq] at h
  refine ⟨r, hr, rfl, hrounds.near h ?_ ?_, fun hexact hk' => ?_⟩
  · rw [← mul_assoc]
    exact mul_le_mul_of_nonneg_right (hca.div_le hcb) (le_of_lt hu)
  · rw [← mul_assoc]
    exact mul_le_mul_of_nonneg_right (hca.symm.div_le hcb.symm) (le_of_lt hu)
  · rw [units_eq_of_le hna hexact, units_powerOfTen_eq hkb hk'] at hrounds
    exact hrounds.unique h

/-- Multiplied by a power of ten. -/
theorem mul_powerOfTen_near {k : Nat} (hn : 0 < n) (hn' : n ≤ 10 ^ 18) (hk : k ≤ 308)
    (h : Rounds rank (n * 10 ^ k * unitsPerOne)) :
    ∃ r, ofNat n * powerOfTen k = .ofRank false r ∧ Near r rank ∧
      (n ≤ 2 ^ 53 → k ≤ 22 → r = rank) := by
  have hu := unitsPerOne_cast_pos
  have hone : (1 : ℚ) ≤ n := by exact_mod_cast hn
  obtain ⟨a, ha, hofNat, hna⟩ := exists_ofNat_eq hn' (by decide)
  obtain ⟨b, hb, hpower, hkb⟩ := exists_powerOfTen_eq hk
  obtain ⟨r, hmul, hrounds⟩ := exists_mul_eq ha hb
  have hca := hna.close (binade_le_mul_unitsPerOne hone)
  have hcb := hkb.close (binade_le_mul_unitsPerOne (one_le_ten_pow k))
  have hq : (n * 10 ^ k * unitsPerOne : ℚ) =
      n * unitsPerOne * (10 ^ k * unitsPerOne) / unitsPerOne := by
    field_simp
  rw [hofNat, hpower, hmul]
  rw [hq] at h
  refine ⟨r, rfl, hrounds.near h ?_ ?_, fun hexact hk' => ?_⟩
  · rw [← mul_div_assoc]
    exact div_le_div_of_nonneg_right (hca.mul_le hcb) (le_of_lt hu)
  · rw [← mul_div_assoc]
    exact div_le_div_of_nonneg_right (hca.symm.mul_le hcb.symm) (le_of_lt hu)
  · rw [units_eq_of_le hna hexact, units_powerOfTen_eq hkb hk'] at hrounds
    exact hrounds.unique h

/-! ### Below 10^-308 -/

theorem exists_units_rank308 :
    ∃ w, 0 < w ∧ units rank308 = significand308 * w ∧
      ∀ l, 2 ^ (l + 1023) * unitsPerOne = binade * 2 ^ l * w := by
  obtain ⟨k, hk⟩ : ∃ k, k = 2045 := ⟨_, rfl⟩
  obtain ⟨e, he⟩ : ∃ e, e = 1074 := ⟨_, rfl⟩
  have hrank : rank308 = k * binade + significand308 := by
    rw [hk]
    decide
  refine ⟨_, Nat.two_pow_pos k, ?_, fun l => ?_⟩
  · rw [hrank, units_add (by decide) (Or.inr (by decide))]
  · rw [← two_pow_eq_unitsPerOne he, binade_eq, ← Nat.pow_add, ← Nat.pow_add, ← Nat.pow_add]
    congr 1
    omega

theorem powerOfTen_eq {k r : Nat} (h : nearestRank (Nat.pow 10 k * unitsPerOne) 1 = r)
    (hr : r < topRank) : powerOfTen k = .number false r (Nat.le_of_lt hr) := by
  rw [powerOfTen, ofNat, ofUnits, h, ofRank_of_le]

theorem powerOfTen_308 :
    powerOfTen 308 = .number false rank308 (Nat.le_of_lt rank308_lt_topRank) :=
  powerOfTen_eq nearestRank_ten_pow_308 rank308_lt_topRank

/-- The rank of three. -/
def rankThree : Nat := 1023 * binade + 3 * 2 ^ 51

theorem units_rankThree : units rankThree = 3 * 2 ^ 51 * 2 ^ 1023 :=
  units_add (by decide) (Or.inr (by decide))

theorem rankThree_le (h : Rounds a (n * unitsPerOne)) (hn : 3 ≤ n) : rankThree ≤ a := by
  have hthree : units rankThree = 3 * unitsPerOne := by
    rw [units_rankThree, ← two_pow_eq_unitsPerOne (by decide : 51 + 1023 = 1074), Nat.pow_add,
      Nat.mul_assoc]
  refine h.le_rank ?_
  rw [hthree]
  exact_mod_cast Nat.mul_le_mul_right _ hn

/-- From three on the quotients by 10^308 have all their binary digits. -/
theorem binade_le_quotient (h : rankThree ≤ a) :
    (binade : ℚ) ≤ units a * unitsPerOne / units rank308 := by
  obtain ⟨w, hw, hunits, hone⟩ := exists_units_rank308
  have hpos : (0 : ℚ) < units rank308 := by
    exact_mod_cast units_pos (by decide : 0 < rank308)
  have hone : 2 ^ 1023 * unitsPerOne = binade * w := by
    have := hone 0
    rwa [Nat.zero_add, Nat.pow_zero, Nat.mul_one] at this
  have hthree : binade * units rank308 ≤ units rankThree * unitsPerOne := by
    rw [units_rankThree, Nat.mul_assoc, hone, hunits]
    calc binade * (significand308 * w) = significand308 * (binade * w) := by ring
      _ ≤ 3 * 2 ^ 51 * (binade * w) := Nat.mul_le_mul_right _ (by decide)
  rw [le_div_iff₀ hpos]
  have hle := hthree.trans (Nat.mul_le_mul_right unitsPerOne (units_strictMono.monotone h))
  exact_mod_cast hle

/-- A significand below that of 10^308 makes a quotient with a large significand. -/
theorem quotient_le_of_lt {a g k m : Nat} (ha : a = k * binade + m) (hge : binade ≤ m)
    (hlt : m < significand308) (hthree : rankThree ≤ a)
    (h : Rounds g (units a * unitsPerOne / units rank308)) :
    (units a * unitsPerOne / units rank308 : ℚ) ≤
      (1 + 1 / (2 * significandBelow : Nat)) * units g := by
  have hm : m ≤ 2 * binade := Nat.le_of_lt (hlt.trans (by decide))
  obtain ⟨l, rfl⟩ : ∃ l, k = l + 1024 := by
    refine Nat.exists_eq_add_of_le' (Nat.le_of_not_lt fun hk => ?_)
    have hmul : k * binade ≤ 1023 * binade := Nat.mul_le_mul_right _ (by omega)
    have hbound : 1023 * binade + significand308 ≤ rankThree := by decide
    omega
  obtain ⟨w, hw, hunits, hone⟩ := exists_units_rank308
  have hnum : units a * unitsPerOne = m * (2 * binade) * 2 ^ l * w := by
    rw [ha, units_add hm (Or.inr hge), Nat.mul_assoc, show l + 1024 = l + 1 + 1023 from rfl, hone]
    ring
  have hq : (units a * unitsPerOne / units rank308 : ℚ) =
      (m * (2 * binade) * 2 ^ l : Nat) / significand308 := by
    have hw' : (w : ℚ) ≠ 0 := by exact_mod_cast Nat.ne_of_gt hw
    rw [← Nat.cast_mul, hnum, hunits, Nat.cast_mul, Nat.cast_mul significand308,
      mul_div_mul_right _ _ hw']
  rw [hq] at h ⊢
  exact h.le_mul_units_of_quotient hge hlt (by decide) (by decide) (by decide)

theorem factor_nonneg (c : Nat) : (0 : ℚ) ≤ 1 + 1 / (2 * c : Nat) := by positivity

theorem factors_le {c d p q : Nat} (hc : 0 < c) (hd : 0 < d)
    (h : (2 * c + 1) * (2 * d + 1) * p * (2 * binade) ^ 2 ≤
      (2 * binade + 1) ^ 2 * q * (2 * c * (2 * d))) :
    (1 + 1 / (2 * c : Nat)) * (1 + 1 / (2 * d : Nat)) * p ≤ (1 + roundoff) ^ 2 * (q : ℚ) := by
  have hc' : (0 : ℚ) < c := by exact_mod_cast hc
  have hd' : (0 : ℚ) < d := by exact_mod_cast hd
  have hb : (0 : ℚ) < binade := by norm_num [binade]
  have hcast : ((2 * c + 1) * (2 * d + 1) * p * (2 * binade) ^ 2 : ℚ) ≤
      (2 * binade + 1) ^ 2 * q * (2 * c * (2 * d)) := by exact_mod_cast h
  have hleft : (1 + 1 / (2 * c : Nat)) * (1 + 1 / (2 * d : Nat)) * (p : ℚ) =
      (2 * c + 1) * (2 * d + 1) * p / (2 * c * (2 * d)) := by
    push_cast
    field_simp
  have hright : (1 + roundoff) ^ 2 * (q : ℚ) =
      (2 * binade + 1) ^ 2 * q / (2 * binade) ^ 2 := by
    rw [roundoff]
    push_cast
    field_simp
  rw [hleft, hright, div_le_div_iff₀ (by positivity) (by positivity)]
  exact hcast

section Quotient

variable {g : Nat} (hn : 3 ≤ n) (ha : Rounds a (n * unitsPerOne))
  (hg : Rounds g (units a * unitsPerOne / units rank308))
include hn ha hg

/-- One of the two roundings is small: that of the digits, or else that of the quotient. -/
theorem exists_factors :
    ∃ c d : ℚ, 0 ≤ c ∧ (n * unitsPerOne : ℚ) ≤ c * units a ∧
      (units a * unitsPerOne / units rank308 : ℚ) ≤ d * units g ∧
      c * d * units rank308 ≤ (1 + roundoff) ^ 2 * (10 ^ 308 * unitsPerOne : Nat) := by
  have hthree := rankThree_le ha hn
  have hdigits : (1 : ℚ) ≤ n := by exact_mod_cast Nat.le_trans (by decide) hn
  obtain ⟨k, m, hrank, hm, hge⟩ :=
    exists_significand_of_binade_le (ha.binade_le (binade_le_mul_unitsPerOne hdigits))
  rcases Nat.lt_or_ge m significand308 with hlt | hle
  · exact ⟨_, _, factor_nonneg _, ha.le_mul_units hrank hm (Or.inr hge) (by decide) hge,
      quotient_le_of_lt hrank hge hlt hthree hg,
      factors_le (by decide) (by decide) rank308_exact.2.2.1⟩
  · exact ⟨_, _, factor_nonneg _, ha.le_mul_units hrank hm (Or.inr hge) (by decide) hle,
      hg.le_one_add_roundoff_mul (binade_le_quotient hthree),
      factors_le (by decide) (by decide) rank308_exact.2.2.2⟩

/-- The double for 10^308 is above it, so that the quotient is moved up by two roundings only. -/
theorem quotient308_le :
    (units g * (10 ^ 308 : Nat) : ℚ) ≤ (1 + roundoff) ^ 2 * (n * unitsPerOne) := by
  have hu := unitsPerOne_cast_pos
  have hr := roundoff_pos
  have hp : (0 : ℚ) < units rank308 := by exact_mod_cast units_pos (by decide : 0 < rank308)
  have hpow : ((10 ^ 308 : Nat) * unitsPerOne : ℚ) ≤ units rank308 := by
    exact_mod_cast ten_pow_308_le_units
  have hdigits : (1 : ℚ) ≤ n := by exact_mod_cast Nat.le_trans (by decide) hn
  have hquotient := hg.units_le_one_add_roundoff_mul (binade_le_quotient (rankThree_le ha hn))
  have hround := ha.units_le_one_add_roundoff_mul (binade_le_mul_unitsPerOne hdigits)
  have ht : (0 : ℚ) ≤ (10 ^ 308 : Nat) := Nat.cast_nonneg _
  generalize ((10 ^ 308 : Nat) : ℚ) = t at ht hpow ⊢
  generalize (units rank308 : ℚ) = p at hp hpow hquotient
  generalize (unitsPerOne : ℚ) = u at *
  have ha0 : (0 : ℚ) ≤ units a := Nat.cast_nonneg _
  refine le_of_mul_le_mul_right ?_ hp
  calc units g * t * p ≤ (1 + roundoff) * (units a * u / p) * t * p :=
        mul_le_mul_of_nonneg_right (mul_le_mul_of_nonneg_right hquotient ht) (le_of_lt hp)
    _ = (1 + roundoff) * units a * (t * u) := by field_simp
    _ ≤ (1 + roundoff) * ((1 + roundoff) * (n * u)) * p :=
        mul_le_mul (mul_le_mul_of_nonneg_left hround (by linarith)) hpow
          (mul_nonneg ht (le_of_lt hu)) (by positivity)
    _ = (1 + roundoff) ^ 2 * (n * u) * p := by ring

theorem le_quotient308 :
    (n * unitsPerOne : ℚ) ≤ (1 + roundoff) ^ 2 * (units g * (10 ^ 308 : Nat)) := by
  have hu := unitsPerOne_cast_pos
  have hp : (0 : ℚ) < units rank308 := by exact_mod_cast units_pos (by decide : 0 < rank308)
  obtain ⟨c, d, hc0, hc, hd, hfactors⟩ := exists_factors hn ha hg
  rw [Nat.cast_mul] at hfactors
  rw [div_le_iff₀ hp] at hd
  generalize ((10 ^ 308 : Nat) : ℚ) = t at hfactors ⊢
  generalize (units rank308 : ℚ) = p at hp hd hfactors
  generalize (unitsPerOne : ℚ) = u at *
  have hg0 : (0 : ℚ) ≤ units g := Nat.cast_nonneg _
  refine le_of_mul_le_mul_right ?_ hu
  calc n * u * u ≤ c * units a * u := mul_le_mul_of_nonneg_right hc (le_of_lt hu)
    _ = c * (units a * u) := by ring
    _ ≤ c * (d * units g * p) := mul_le_mul_of_nonneg_left hd hc0
    _ = c * d * p * units g := by ring
    _ ≤ (1 + roundoff) ^ 2 * (t * u) * units g := mul_le_mul_of_nonneg_right hfactors hg0
    _ = (1 + roundoff) ^ 2 * (units g * t) * u := by ring

end Quotient

/-- One and two are divided to where the doubles thin out. -/
theorem nearestRank_of_one_or_two :
    ∀ m < 3, ∀ k < 17,
      let g := nearestRank (m * unitsPerOne * unitsPerOne) (units rank308)
      nearestRank (units g) (10 ^ k) ≤ nearestRank (m * unitsPerOne) (10 ^ 308 * 10 ^ k) + 2 ∧
        nearestRank (m * unitsPerOne) (10 ^ 308 * 10 ^ k) ≤ nearestRank (units g) (10 ^ k) + 2 := by
  decide +kernel

/-- Divided by 10^308 first and by a smaller power after that. -/
theorem div_div_powerOfTen_near {k : Nat} (hn : n ≤ 10 ^ 18) (hk : k ≤ 16)
    (h : Rounds rank (n * unitsPerOne / (10 ^ 308 * 10 ^ k : Nat))) :
    ∃ r, ∃ hr : r < topRank,
      ofNat n / powerOfTen 308 / powerOfTen k = .number false r (Nat.le_of_lt hr) ∧
      Near r rank := by
  obtain ⟨a, ha, hofNat, hna⟩ := exists_ofNat_eq hn (by decide)
  obtain ⟨g, hg, hdiv, hga⟩ := exists_div_eq ha rank308_lt_topRank unitsPerOne_le_units_rank308
  obtain ⟨b, hb, hpower, hkb⟩ := exists_powerOfTen_eq (by omega : k ≤ 308)
  obtain ⟨r, hr, hdiv', hrg⟩ := exists_div_eq hg hb (unitsPerOne_le_units hkb)
  rw [hofNat, powerOfTen_308, hdiv, hpower, hdiv']
  refine ⟨r, hr, rfl, ?_⟩
  have hu := unitsPerOne_cast_pos
  have hunits : (units g * unitsPerOne / units b : ℚ) = units g / (10 ^ k : Nat) := by
    rw [units_powerOfTen_eq hkb (by omega), mul_div_mul_right _ _ (ne_of_gt hu)]
    push_cast
    rfl
  rw [hunits] at hrg
  have hpow : (0 : ℚ) < (10 ^ k : Nat) := by exact_mod_cast Nat.pow_pos (by decide)
  rcases Nat.lt_or_ge n 3 with hsmall | hthree
  · rw [units_eq_of_le hna (Nat.le_of_lt (hsmall.trans (by decide)))] at hga
    have hpos : 0 < units rank308 :=
      Nat.lt_of_lt_of_le unitsPerOne_pos unitsPerOne_le_units_rank308
    have hg' : g = nearestRank (n * unitsPerOne * unitsPerOne) (units rank308) :=
      Rounds.eq_nearestRank (by exact_mod_cast hga) hpos
    have hr' := hrg.eq_nearestRank (Nat.pow_pos (by decide))
    have hrank : rank = nearestRank (n * unitsPerOne) (10 ^ 308 * 10 ^ k) :=
      Rounds.eq_nearestRank (by exact_mod_cast h) (by positivity)
    have hnear := nearestRank_of_one_or_two n hsmall k (by omega)
    dsimp only at hnear
    rw [← hg', ← hr', ← hrank] at hnear
    exact hnear
  · have hle := quotient308_le hthree hna hga
    have hge := le_quotient308 hthree hna hga
    have ht : (0 : ℚ) < (10 ^ 308 : Nat) := by exact_mod_cast Nat.pow_pos (by decide)
    rw [Nat.cast_mul] at h
    generalize ((10 ^ 308 : Nat) : ℚ) = t at h hle hge ht
    have hp : (units g / (10 ^ k : Nat) : ℚ) = units g * t / (t * (10 ^ k : Nat)) := by
      rw [mul_comm t, mul_div_mul_right _ _ (ne_of_gt ht)]
    rw [hp] at hrg
    refine hrg.near h ?_ ?_ <;> rw [← mul_div_assoc]
    · exact div_le_div_of_nonneg_right hle (by positivity)
    · exact div_le_div_of_nonneg_right hge (by positivity)

/-! ### All exponents -/

theorem scaleByTen_neg {k : Nat} (x : Binary64) (hk : 0 < k) (hk' : k ≤ 308) :
    scaleByTen x (-k) = some (x / powerOfTen k) := by
  rw [scaleByTen, if_pos (by omega), if_pos (by omega), Int.natAbs_neg, Int.natAbs_natCast]

theorem scaleByTen_natCast {k : Nat} {x : Binary64} (hk : k ≤ 308)
    (h : (x * powerOfTen k).isFinite = true) :
    scaleByTen x k = some (x * powerOfTen k) := by
  rw [scaleByTen, if_pos (by omega), if_neg (by omega), if_pos (by omega), Int.natAbs_natCast]
  exact if_pos h

theorem scaleByTen_step {x : Binary64} {k : Nat} (hk : 0 < k) (h : x.isZero = false) :
    scaleByTen x (-(308 + k : Nat)) = scaleByTen (x / powerOfTen 308) (-k) := by
  rw [scaleByTen, if_neg (by omega), h, if_neg Bool.false_ne_true]
  congr 1
  omega

theorem isZero_ofNat (hn : 0 < n) (hn' : n ≤ 10 ^ 18) : (ofNat n).isZero = false := by
  obtain ⟨a, ha, hofNat, hna⟩ := exists_ofNat_eq hn' (by decide)
  have hfull := hna.binade_le (binade_le_mul_unitsPerOne (by exact_mod_cast hn))
  rw [hofNat, isZero, beq_eq_false_iff_ne]
  rintro rfl
  exact absurd hfull (by decide)

/-- A number is read as a double that is at most two places away from the nearest one, or the
nearest one itself if its digits and the power of ten are doubles.  It may be too large. -/
theorem scaleByTen_near (hn : 0 < n) (hn' : n ≤ 10 ^ 18) (he : -324 ≤ e) (he' : e ≤ 308)
    (h : Rounds rank (decimalUnits n (-e))) :
    ∃ r, Near r rank ∧ (n ≤ 2 ^ 53 → e.natAbs ≤ 22 → r = rank) ∧
      (r < topRank → scaleByTen (ofNat n) e = some (.ofRank false r)) := by
  rw [decimalUnits, neg_neg] at h
  rcases lt_or_ge e 0 with hneg | hnonneg
  · obtain ⟨k, rfl⟩ : ∃ k : Nat, e = -k := ⟨e.natAbs, by omega⟩
    rw [zpow_neg, zpow_natCast, ← div_eq_mul_inv, div_mul_eq_mul_div] at h
    rcases Nat.lt_or_ge 308 k with hlarge | hsmall
    · obtain ⟨j, rfl⟩ : ∃ j, k = 308 + j := Nat.exists_eq_add_of_le (Nat.le_of_lt hlarge)
      obtain ⟨r, hr, hdiv, hnear⟩ := div_div_powerOfTen_near (k := j) hn' (by omega)
        (by
          rw [← Nat.pow_add]
          exact_mod_cast h)
      refine ⟨r, hnear, fun _ hexact => by omega, fun _ => ?_⟩
      rw [scaleByTen_step (by omega) (isZero_ofNat hn hn'),
        scaleByTen_neg _ (by omega) (by omega), hdiv, ofRank_of_le]
    · obtain ⟨r, hr, hdiv, hnear, hexact⟩ := div_powerOfTen_near hn hn' hsmall h
      refine ⟨r, hnear, fun hle hk => hexact hle (by omega), fun _ => ?_⟩
      rw [scaleByTen_neg _ (by omega) hsmall, hdiv, ofRank_of_le]
  · obtain ⟨k, rfl⟩ := Int.eq_ofNat_of_zero_le hnonneg
    rw [zpow_natCast] at h
    obtain ⟨r, hmul, hnear, hexact⟩ := mul_powerOfTen_near hn hn' (by omega) h
    refine ⟨r, hnear, fun hle hk => hexact hle (by omega), fun hr => ?_⟩
    rw [scaleByTen_natCast (by omega), hmul]
    rw [hmul, ofRank_of_le false (Nat.le_of_lt hr)]
    exact decide_eq_true hr

end Json
end EvalDiff
