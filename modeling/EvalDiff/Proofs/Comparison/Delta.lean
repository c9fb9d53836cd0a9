import EvalDiff.Proofs.Binary64.Ratio
import EvalDiff.Proofs.Comparison.Specification
import EvalDiff.Proofs.Verdict

/-!
# The sign of a delta

A verdict comes from the order of two values and a delta from their quotient.  The two agree over
a positive baseline, and only there: dividing by a negative baseline turns the sign around, and
there is no sign at all between the two infinities.
-/

namespace EvalDiff

namespace Binary64

variable {x y : Binary64}

theorem isNaN_of_lt (h : x.lt y = true) : x.isNaN = false ∧ y.isNaN = false := by
  cases x with
  | nan => cases h
  | number =>
    cases y with
    | nan => cases h
    | number => exact ⟨rfl, rfl⟩

theorem isNaN_of_lt_or_lt (h : x.lt y = true ∨ y.lt x = true) :
    x.isNaN = false ∧ y.isNaN = false :=
  h.elim isNaN_of_lt fun h => (isNaN_of_lt h).symm

/-- A number other than zero has one of the two signs. -/
theorem lt_zero_iff (hnumber : x.isNaN = false) (hzero : x.isZero = false) :
    x.lt zero = true ↔ ¬ zero.lt x = true := by
  cases x with
  | nan => cases hnumber
  | number s a ha =>
    have hne : a ≠ 0 := beq_eq_false_iff_ne.mp hzero
    cases s <;> simp [zero, ofRank, lt, signedRank] <;> omega

/-- Of two different numbers the quotient, less one, is positive if a positive number divides a
larger one or a negative number a smaller one. -/
theorem zero_lt_div_sub_one_iff (hzero : x.isZero = false) (h : x.lt y = true ∨ y.lt x = true) :
    zero.lt (y / x - one) = true ↔ (x.lt y = true ↔ zero.lt x = true) := by
  rw [zero_lt_sub_one, one_lt_div_iff hzero, lt_zero_iff (isNaN_of_lt_or_lt h).1 hzero]
  rcases h with h | h <;> simp [h, not_lt_of_lt h]

theorem div_sub_one_lt_zero_iff (hzero : x.isZero = false) (h : x.lt y = true ∨ y.lt x = true)
    (hfinite : x.isFinite = true ∨ y.isFinite = true) :
    (y / x - one).lt zero = true ↔ ¬ (x.lt y = true ↔ zero.lt x = true) := by
  rw [sub_one_lt_zero, div_lt_one_iff hzero hfinite, lt_zero_iff (isNaN_of_lt_or_lt h).1 hzero]
  rcases h with h | h <;> simp [h, not_lt_of_lt h]

end Binary64

namespace Comparison

open Binary64 Log Report

variable {o : Options} {baseline comparison : List String} {r : Report} {e : Entry}

/-- Every entry comes from a compared pair of rows, which it describes. -/
theorem exists_describes_of_mem (h : compare o baseline comparison = .ok r)
    (he : e ∈ r.entries) :
    ∃ p ∈ pairs baseline comparison, p.Acceptable o ∧ p.Compared o ∧ p.Describes e := by
  obtain ⟨-, hall, rfl⟩ := compare_eq_ok_iff.mp h
  obtain ⟨p, hp, hentry⟩ := List.mem_filterMap.mp he
  have ha := hall p hp
  by_cases hc : p.Compared o
  · obtain ⟨e', he', hd⟩ := (RowPair.yield?_of_acceptable ha).1 hc
    rw [hentry] at he'
    cases he'
    exact ⟨p, hp, ha, hc, hd⟩
  · rw [(RowPair.yield?_of_acceptable ha).2 hc] at hentry
    cases hentry

theorem isZero_baseline_of_changed (h : compare o baseline comparison = .ok r)
    (he : e ∈ r.entries) (hchanged : e.verdict ≠ .unchanged) : e.baseline.isZero = false := by
  obtain ⟨p, -, ha, hc, hd⟩ := exists_describes_of_mem h he
  obtain ⟨x, y, hvalues⟩ := (RowPair.comparable_of_acceptable ha hc).values
  have hx := hvalues.baseline
  have hy := hvalues.comparison
  rw [hd.baseline] at hx
  rw [hd.comparison] at hy
  cases hx
  cases hy
  rw [hd.verdict, ne_eq, RowPair.ofValues_eq_unchanged_iff, not_not] at hchanged
  have hdefined := hvalues.defined
  simpa [hchanged] using hdefined

theorem delta_of_changed (h : compare o baseline comparison = .ok r) (he : e ∈ r.entries)
    (hchanged : e.verdict ≠ .unchanged) : e.delta = e.comparison / e.baseline - one := by
  obtain ⟨p, -, -, -, hd⟩ := exists_describes_of_mem h he
  rw [hd.delta, if_neg hchanged]

theorem verdict_eq_ofValues (h : compare o baseline comparison = .ok r) (he : e ∈ r.entries) :
    e.verdict = Verdict.ofValues e.baseline e.comparison := by
  obtain ⟨p, -, -, -, hd⟩ := exists_describes_of_mem h he
  exact hd.verdict

theorem zero_lt_delta_iff (h : compare o baseline comparison = .ok r) (he : e ∈ r.entries)
    (hv : e.verdict = .better) : zero.lt e.delta = true ↔ zero.lt e.baseline = true := by
  have hchanged : e.verdict ≠ .unchanged := by simp [hv]
  have hlt : e.baseline.lt e.comparison = true := by
    rw [← Verdict.ofValues_eq_better_iff, ← verdict_eq_ofValues h he, hv]
  rw [delta_of_changed h he hchanged,
    zero_lt_div_sub_one_iff (isZero_baseline_of_changed h he hchanged) (.inl hlt)]
  simp [hlt]

theorem delta_lt_zero_iff (h : compare o baseline comparison = .ok r) (he : e ∈ r.entries)
    (hv : e.verdict = .worse) :
    e.delta.lt zero = true ↔
      zero.lt e.baseline = true ∧
        ¬ (e.baseline = infinity false ∧ e.comparison = infinity true) := by
  have hchanged : e.verdict ≠ .unchanged := by simp [hv]
  have hlt : e.comparison.lt e.baseline = true := by
    rw [← Verdict.ofValues_eq_worse_iff, ← verdict_eq_ofValues h he, hv]
  rw [delta_of_changed h he hchanged]
  by_cases hfinite : e.baseline.isFinite = true ∨ e.comparison.isFinite = true
  · rw [div_sub_one_lt_zero_iff (isZero_baseline_of_changed h he hchanged) (.inr hlt) hfinite]
    have hne : ¬ (e.baseline = infinity false ∧ e.comparison = infinity true) := by
      rintro ⟨hb, hc⟩
      rw [hb, hc] at hfinite
      revert hfinite
      decide
    simp [not_lt_of_lt hlt, hne]
  · simp only [not_or, Bool.not_eq_true] at hfinite
    obtain ⟨hc, hb⟩ := eq_infinity_of_lt hlt hfinite.2 hfinite.1
    rw [hb, hc]
    exact iff_of_false (by decide) fun h => h.2 ⟨rfl, rfl⟩

/-- The sign of a delta agrees with the verdict exactly over a positive baseline, except that
there is no delta from one infinity to the other. -/
theorem delta_sign_agrees_over_positive (h : compare o baseline comparison = .ok r) :
    ∀ e ∈ r.entries,
      (e.verdict = .better → (zero.lt e.delta = true ↔ zero.lt e.baseline = true)) ∧
      (e.verdict = .worse →
        (e.delta.lt zero = true ↔
          zero.lt e.baseline = true ∧
            ¬ (e.baseline = infinity false ∧ e.comparison = infinity true))) :=
  fun _ he => ⟨zero_lt_delta_iff h he, delta_lt_zero_iff h he⟩

/-- One third more, and the loss of an infinite value. -/
theorem delta_sign_agrees_over_positive_two_rows :
    let baseline := ["map\tq1\t0.3", "map\tq2\tinf"]
    let comparison := ["map\tq1\t0.4", "map\tq2\t0"]
    ∃ r better worse, compare {} baseline comparison = .ok r ∧ r.entries = [better, worse] ∧
      zero.lt better.delta = true ∧ worse.delta.lt zero = true := by
  intro baseline comparison
  have hrun : ((compare {} baseline comparison).toOption.map fun r =>
      r.entries.map fun e => (e.verdict, zero.lt e.baseline, e.comparison.isFinite)) =
        some [(.better, true, true), (.worse, true, true)] := by
    decide +kernel
  obtain ⟨r, hr, hentries⟩ := exists_ok_of_map hrun
  rw [List.map_eq_cons_iff] at hentries
  obtain ⟨better, rest, hentries, hbetter, hrest⟩ := hentries
  rw [List.map_eq_singleton_iff] at hrest
  obtain ⟨worse, rfl, hworse⟩ := hrest
  simp only [Prod.mk.injEq] at hbetter hworse
  have hsign := delta_sign_agrees_over_positive hr
  rw [hentries, List.forall_mem_cons, List.forall_mem_singleton] at hsign
  refine ⟨r, better, worse, hr, hentries, (hsign.1.1 hbetter.1).mpr hbetter.2.1,
    (hsign.2.2 hworse.1).mpr ⟨hworse.2.1, fun hinf => ?_⟩⟩
  rw [hinf.2] at hworse
  exact absurd hworse.2.2 (by decide)

/-- From minus a half to plus a half is better, but the quotient is minus one. -/
theorem better_with_negative_delta :
    ∃ r e, compare {} ["map\tq1\t-0.5"] ["map\tq1\t0.5"] = .ok r ∧ e ∈ r.entries ∧
      e.verdict = .better ∧ ¬ zero.lt e.delta = true ∧ e.delta.lt zero = true := by
  have hrun : ((compare {} ["map\tq1\t-0.5"] ["map\tq1\t0.5"]).toOption.map fun r =>
      r.entries.map fun e => (e.verdict, zero.lt e.delta, e.delta.lt zero)) =
        some [(.better, false, true)] := by
    decide +kernel
  obtain ⟨r, hr, hentries⟩ := exists_ok_of_map hrun
  obtain ⟨e, hentries, he⟩ := List.map_eq_singleton_iff.mp hentries
  simp only [Prod.mk.injEq] at he
  refine ⟨r, e, hr, ?_, he.1, by simp [he.2.1], he.2.2⟩
  rw [hentries]
  exact List.mem_singleton_self e

end Comparison
end EvalDiff
