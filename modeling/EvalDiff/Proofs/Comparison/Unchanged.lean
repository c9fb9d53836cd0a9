import EvalDiff.Proofs.Comparison.Delta
import EvalDiff.Proofs.Comparison.Summary

/-!
# Entries that count as unchanged

Two values are unchanged if neither is above the other.  That is so for equal values, and also for
any two values of which one is not-a-number, so a value that is lost is counted nowhere as a change.
-/

namespace EvalDiff

/-- Numbers are in one of the two orders or equal, and not-a-number is in no relation at all. -/
theorem Binary64.not_lt_not_lt_iff (x y : Binary64) :
    ¬ (y.lt x = true ∨ x.lt y = true) ↔
      x.sameValue y = true ∨ x.isNaN = true ∨ y.isNaN = true := by
  cases x with
  | nan => simp [lt, isNaN]
  | number s a ha =>
    cases y with
    | nan => simp [lt, isNaN]
    | number t b hb =>
      simp only [lt, sameValue, isNaN, decide_eq_true_iff, beq_iff_eq, Bool.false_eq_true, or_false]
      omega

namespace Comparison

open Binary64 Report

variable {o : Options} {baseline comparison : List String} {r : Report} {e : Entry}

theorem unchanged_iff (h : compare o baseline comparison = .ok r) (he : e ∈ r.entries) :
    e.verdict = .unchanged ↔
      e.baseline.sameValue e.comparison = true ∨ e.baseline.isNaN = true ∨
        e.comparison.isNaN = true := by
  rw [verdict_eq_ofValues h he, RowPair.ofValues_eq_unchanged_iff, not_lt_not_lt_iff]

theorem count_unchanged (h : compare o baseline comparison = .ok r) :
    r.count .unchanged =
      r.entries.countP fun e =>
        e.baseline.sameValue e.comparison || e.baseline.isNaN || e.comparison.isNaN := by
  rw [Report.count]
  refine List.countP_congr fun e he => ?_
  rw [beq_iff_eq, unchanged_iff h he]
  simp [or_assoc]

theorem hasRegressions_iff_exists_lt (h : compare o baseline comparison = .ok r) :
    r.hasRegressions = true ↔ ∃ e ∈ r.entries, e.comparison.lt e.baseline = true := by
  rw [hasRegressions, List.any_eq_true]
  refine exists_congr fun e => and_congr_right fun he => ?_
  rw [beq_iff_eq, verdict_eq_ofValues h he, Verdict.ofValues_eq_worse_iff]

/-- The unchanged entries are those with equal values and those with a value that is not a number.
All others are in the count of better or worse entries, and the worse ones are regressions. -/
theorem unchanged_iff_same_or_not_number (h : compare o baseline comparison = .ok r) :
    (∀ e ∈ r.entries, e.verdict = .unchanged ↔
        e.baseline.sameValue e.comparison = true ∨ e.baseline.isNaN = true ∨
          e.comparison.isNaN = true) ∧
      (r.count .unchanged =
        r.entries.countP fun e =>
          e.baseline.sameValue e.comparison || e.baseline.isNaN || e.comparison.isNaN) ∧
      r.count .better + r.count .unchanged + r.count .worse = r.entries.length ∧
      (baseline.length ≤ 2 ^ 53 →
        IsNat r.summary.better (r.count .better) ∧
          IsNat r.summary.unchanged (r.count .unchanged) ∧
          IsNat r.summary.worse (max 1 (r.count .worse))) ∧
      (r.hasRegressions = true ↔ ∃ e ∈ r.entries, e.comparison.lt e.baseline = true) := by
  exact ⟨fun e he => unchanged_iff h he, count_unchanged h, countP_verdict_add r.entries,
    fun hlength => exact_counts_of_compare hlength h, hasRegressions_iff_exists_lt h⟩

/-- Of a gain, a loss of the value and two zeros only the first is a change. -/
theorem unchanged_iff_same_or_not_number_three_rows :
    let baseline := ["map\tq1\t0.5", "map\tq2\t0.5", "map\tq3\t-0"]
    let comparison := ["map\tq1\t1", "map\tq2\tNaN", "map\tq3\t0"]
    ∃ r, compare {} baseline comparison = .ok r ∧ r.count .unchanged = 2 ∧
      IsNat r.summary.unchanged 2 ∧ ¬ r.hasRegressions = true := by
  intro baseline comparison
  have hvalues : ((compare {} baseline comparison).toOption.map fun r =>
      (r.entries.countP fun e =>
          e.baseline.sameValue e.comparison || e.baseline.isNaN || e.comparison.isNaN,
        r.entries.all fun e => !e.comparison.lt e.baseline)) = some (2, true) := by
    decide +kernel
  obtain ⟨r, hr, hvalues⟩ := exists_ok_of_map hvalues
  obtain ⟨htwo, hall⟩ := Prod.mk.inj hvalues
  obtain ⟨-, hcount, -, hsummary, hregressions⟩ := unchanged_iff_same_or_not_number hr
  rw [← hcount] at htwo
  refine ⟨r, hr, htwo, ?_, ?_⟩
  · rw [← htwo]
    exact (hsummary (by decide)).2.1
  · rw [hregressions]
    rintro ⟨e, he, hlt⟩
    have hnot := List.all_eq_true.mp hall e he
    rw [hlt] at hnot
    cases hnot

/-- A value that is not a number any more is neither counted nor a regression. -/
theorem lost_value_unchanged :
    ∃ r e, compare {} ["map\tq1\t0.5"] ["map\tq1\tnan"] = .ok r ∧ r.entries = [e] ∧
      e.baseline.isNaN = false ∧ e.comparison.isNaN = true ∧ e.verdict = .unchanged ∧
      r.count .better = 0 ∧ r.count .worse = 0 ∧ r.hasRegressions = false := by
  have hrun : ((compare {} ["map\tq1\t0.5"] ["map\tq1\tnan"]).toOption.map fun r =>
      (r.entries.map fun e => (e.baseline.isNaN, e.comparison.isNaN, e.verdict),
        r.count .better, r.count .worse, r.hasRegressions)) =
        some ([(false, true, .unchanged)], 0, 0, false) := by
    decide +kernel
  obtain ⟨r, hr, hrun⟩ := exists_ok_of_map hrun
  simp only [Prod.mk.injEq] at hrun
  obtain ⟨hentries, hcounts⟩ := hrun
  obtain ⟨e, hentries, he⟩ := List.map_eq_singleton_iff.mp hentries
  simp only [Prod.mk.injEq] at he
  exact ⟨r, e, hr, hentries, he.1, he.2.1, he.2.2, hcounts⟩

end Comparison
end EvalDiff
