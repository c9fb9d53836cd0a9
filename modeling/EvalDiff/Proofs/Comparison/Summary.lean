import EvalDiff.Proofs.Comparison.Specification
import EvalDiff.Proofs.Report.Counts

/-!
# The summary of a comparison

A report has at most one entry for each line, so the counts of logs of up to 2^53 lines are
exact.
-/

namespace EvalDiff
namespace Comparison

open Binary64 Report

theorem length_entries_le {o : Options} {baseline comparison : List String} {r : Report}
    (h : compare o baseline comparison = .ok r) : r.entries.length ≤ baseline.length := by
  obtain ⟨hlength, -, rfl⟩ := compare_eq_ok_iff.mp h
  rw [← length_pairs hlength]
  exact List.length_filterMap_le _ _

/-- The counts of a comparison, of however many lines. -/
theorem counts_of_compare {o : Options} {baseline comparison : List String} {r : Report}
    (h : compare o baseline comparison = .ok r) :
    IsNat r.summary.better (min (r.count .better) (2 ^ 53)) ∧
      IsNat r.summary.unchanged (min (r.count .unchanged) (2 ^ 53)) ∧
      IsNat r.summary.worse (max 1 (min (r.count .worse) (2 ^ 53))) := by
  obtain ⟨-, -, rfl⟩ := compare_eq_ok_iff.mp h
  have hcounts := Tally.counts_ofEntries_min
    ((pairs baseline comparison).filterMap (·.yield? o))
  exact ⟨hcounts .better, hcounts .unchanged, hcounts.summary_worse⟩

theorem exact_counts_of_compare {o : Options} {baseline comparison : List String} {r : Report}
    (hlength : baseline.length ≤ 2 ^ 53) (h : compare o baseline comparison = .ok r) :
    IsNat r.summary.better (r.count .better) ∧ IsNat r.summary.unchanged (r.count .unchanged) ∧
      IsNat r.summary.worse (max 1 (r.count .worse)) := by
  have hmin : ∀ v, min (r.count v) (2 ^ 53) = r.count v := by
    intro v
    refine Nat.min_eq_left (Nat.le_trans (count_le_length r v) ?_)
    exact Nat.le_trans (length_entries_le h) hlength
  have hcounts := counts_of_compare h
  simp only [hmin] at hcounts
  exact hcounts

/-- The summary agrees with the entries.  A lone regression has the same count as none, but not
the same `hasRegressions`. -/
theorem summary_counts_entries {o : Options} {baseline comparison : List String} {r : Report}
    (hlength : baseline.length ≤ 2 ^ 53) (h : compare o baseline comparison = .ok r) :
    IsNat r.summary.better (r.count .better) ∧
      IsNat r.summary.unchanged (r.count .unchanged) ∧
      IsNat r.summary.worse (max 1 (r.count .worse)) ∧
      r.count .better + r.count .unchanged + r.count .worse = r.entries.length ∧
      IsRoundingOf r.summary.ratio (r.count .better / (max 1 (r.count .worse) : ℕ) : ℚ) ∧
      r.summary.ratio.isFinite = true ∧ zero.le r.summary.ratio = true ∧
      (r.summary.ratio.isZero = true ↔ r.count .better = 0) ∧
      (r.hasRegressions = true ↔ 0 < r.count .worse) := by
  have hentries : r.entries.length ≤ 2 ^ 53 := Nat.le_trans (length_entries_le h) hlength
  obtain ⟨hbetter, hunchanged, hworse⟩ := exact_counts_of_compare hlength h
  have hratio : r.summary.ratio = r.summary.better / r.summary.worse := by
    rw [(compare_eq_ok_iff.mp h).2.2]
    rfl
  have hpos : 0 < max 1 (r.count .worse) := Nat.le_max_left _ _
  have hle : max 1 (r.count .worse) ≤ 2 ^ 53 :=
    Nat.max_le.mpr ⟨by decide, Nat.le_trans List.countP_le_length hentries⟩
  have hround := hbetter.isRoundingOf_div hworse hpos
  rw [← hratio] at hround
  refine ⟨hbetter, hunchanged, hworse, countP_verdict_add r.entries, hround, hround.finite,
    ?_, ?_, hasRegressions_iff r⟩
  · rw [hratio]
    exact hbetter.zero_le_div hworse hpos
  · rw [hratio]
    exact hbetter.isZero_div_iff hworse hpos hle

/-- One better row over three worse ones: a third is not a double. -/
theorem summary_counts_entries_third :
    let baseline := ["map\tq1\t0.5", "map\tq2\t0.5", "map\tq3\t0.5", "map\tq4\t0.5", "map\tq5\t0"]
    let comparison := ["map\tq1\t1", "map\tq2\t0", "map\tq3\t0", "map\tq4\t0", "map\tq5\t0"]
    ∃ r, compare {} baseline comparison = .ok r ∧
      IsNat r.summary.better 1 ∧ IsNat r.summary.unchanged 1 ∧ IsNat r.summary.worse 3 ∧
      IsRoundingOf r.summary.ratio (1 / 3) ∧ r.hasRegressions = true := by
  intro baseline comparison
  have hcount : ((compare {} baseline comparison).toOption.map fun r =>
      (r.count .better, r.count .unchanged, r.count .worse)) = some (1, 1, 3) := by
    decide +kernel
  obtain ⟨r, hr, hcount⟩ := exists_ok_of_map hcount
  simp only [Prod.mk.injEq] at hcount
  obtain ⟨hb, hu, hw⟩ := hcount
  have hspec := summary_counts_entries (by decide) hr
  rw [hb, hu, hw] at hspec
  obtain ⟨hbetter, hunchanged, hworse, -, hround, -, -, -, hregressions⟩ := hspec
  refine ⟨r, hr, hbetter, hunchanged, hworse, ?_, hregressions.mpr (by decide)⟩
  simpa using hround

end Comparison
end EvalDiff
