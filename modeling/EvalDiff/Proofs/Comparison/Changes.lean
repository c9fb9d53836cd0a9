import EvalDiff.Proofs.Comparison.Delta

/-!
# What the delta of a change can be

A changed entry has a baseline that is not zero, and its delta has a sign: the quotient of two
different doubles is not rounded to one, and what is left of it without one is not rounded to zero.
The sign is that of the verdict over a positive baseline and the other one over a negative baseline.
Only two infinities have no quotient.
-/

namespace EvalDiff

namespace Binary64

variable {x y : Binary64}

def isInfinite : Binary64 → Bool
  | .nan => false
  | .number _ rank _ => rank == topRank

/-- Of the numbers those are infinite that are not finite. -/
theorem isInfinite_eq_false_iff (hnumber : x.isNaN = false) :
    x.isInfinite = false ↔ x.isFinite = true := by
  cases x with
  | nan => cases hnumber
  | number s a ha =>
    rw [isInfinite, beq_eq_false_iff_ne, isFinite, decide_eq_true_iff]
    omega

/-- What has a sign is a number other than zero. -/
theorem nonzero_of_sign (h : zero.lt x = true ∨ x.lt zero = true) :
    x.isNaN = false ∧ x.isZero = false := by
  cases x with
  | nan => simp [lt, zero, ofRank] at h
  | number s a ha =>
    refine ⟨rfl, beq_eq_false_iff_ne.mpr ?_⟩
    intro hzero
    subst hzero
    cases s <;> simp [zero, ofRank, lt, signedRank] at h

theorem infinity_div_sub_one (hx : x.isInfinite = true) (hy : y.isInfinite = true) :
    y / x - one = .nan := by
  cases x with
  | nan => cases hx
  | number s a ha =>
    cases y with
    | nan => cases hy
    | number t b hb =>
      obtain rfl : a = topRank := beq_iff_eq.mp hx
      obtain rfl : b = topRank := beq_iff_eq.mp hy
      rfl

end Binary64

namespace Comparison

open Binary64 Report

variable {o : Options} {baseline comparison : List String} {r : Report} {e : Entry}

theorem lt_or_lt_of_changed (h : compare o baseline comparison = .ok r) (he : e ∈ r.entries)
    (hchanged : e.verdict ≠ .unchanged) :
    e.baseline.lt e.comparison = true ∨ e.comparison.lt e.baseline = true := by
  rw [verdict_eq_ofValues h he, ne_eq, RowPair.ofValues_eq_unchanged_iff, not_not] at hchanged
  exact hchanged.symm

theorem better_iff_lt (h : compare o baseline comparison = .ok r) (he : e ∈ r.entries) :
    e.verdict = .better ↔ e.baseline.lt e.comparison = true := by
  rw [verdict_eq_ofValues h he, Verdict.ofValues_eq_better_iff]

theorem delta_of_unchanged (h : compare o baseline comparison = .ok r) (he : e ∈ r.entries)
    (hsame : e.verdict = .unchanged) : e.delta = zero := by
  obtain ⟨p, -, -, -, hd⟩ := exists_describes_of_mem h he
  rw [hd.delta, if_pos hsame]

/-- The sign of the delta of a change, unless both values are infinite. -/
theorem sign_of_changed (h : compare o baseline comparison = .ok r) (he : e ∈ r.entries)
    (hchanged : e.verdict ≠ .unchanged)
    (hfinite : ¬ (e.baseline.isInfinite = true ∧ e.comparison.isInfinite = true)) :
    (zero.lt e.delta = true ↔ (e.verdict = .better ↔ zero.lt e.baseline = true)) ∧
      (e.delta.lt zero = true ↔ ¬ (e.verdict = .better ↔ zero.lt e.baseline = true)) := by
  have hzero := isZero_baseline_of_changed h he hchanged
  have hlt := lt_or_lt_of_changed h he hchanged
  obtain ⟨hbaseline, hcomparison⟩ := isNaN_of_lt_or_lt hlt
  have hfinite' : e.baseline.isFinite = true ∨ e.comparison.isFinite = true := by
    rw [not_and_or, Bool.not_eq_true, Bool.not_eq_true] at hfinite
    exact hfinite.imp (isInfinite_eq_false_iff hbaseline).mp
      (isInfinite_eq_false_iff hcomparison).mp
  rw [delta_of_changed h he hchanged, better_iff_lt h he]
  exact ⟨zero_lt_div_sub_one_iff hzero hlt, div_sub_one_lt_zero_iff hzero hlt hfinite'⟩

theorem nonzero_of_changed (h : compare o baseline comparison = .ok r) (he : e ∈ r.entries)
    (hchanged : e.verdict ≠ .unchanged)
    (hfinite : ¬ (e.baseline.isInfinite = true ∧ e.comparison.isInfinite = true)) :
    e.delta.isNaN = false ∧ e.delta.isZero = false := by
  obtain ⟨hpos, hneg⟩ := sign_of_changed h he hchanged hfinite
  apply nonzero_of_sign
  rw [hpos, hneg]
  exact Classical.em _

/-- What the delta of an entry is: for a change over a baseline other than zero a number with the
sign that verdict and baseline tell, or not-a-number between infinities, and otherwise zero. -/
theorem delta_of_verdict (h : compare o baseline comparison = .ok r) :
    ∀ e ∈ r.entries,
      (e.verdict ≠ .unchanged →
        e.baseline.isZero = false ∧
        (¬ (e.baseline.isInfinite = true ∧ e.comparison.isInfinite = true) →
          e.delta.isNaN = false ∧ e.delta.isZero = false ∧
          (zero.lt e.delta = true ↔ (e.verdict = .better ↔ zero.lt e.baseline = true)) ∧
          (e.delta.lt zero = true ↔ ¬ (e.verdict = .better ↔ zero.lt e.baseline = true))) ∧
        (e.baseline.isInfinite = true ∧ e.comparison.isInfinite = true → e.delta = .nan)) ∧
      (e.verdict = .unchanged → e.delta = zero) := by
  intro e he
  refine ⟨fun hchanged => ⟨isZero_baseline_of_changed h he hchanged, ?_, ?_⟩,
    delta_of_unchanged h he⟩
  · intro hfinite
    obtain ⟨hnumber, hzero⟩ := nonzero_of_changed h he hchanged hfinite
    exact ⟨hnumber, hzero, sign_of_changed h he hchanged hfinite⟩
  · rintro ⟨hb, hc⟩
    rw [delta_of_changed h he hchanged]
    exact infinity_div_sub_one hb hc

/-- The next double after one tenth, a rise over a negative baseline, and one between the
infinities. -/
theorem delta_of_verdict_three_rises :
    let baseline := ["map\tq1\t0.1", "map\tq2\t-0.1", "map\tq3\t-inf"]
    let comparison := ["map\tq1\t0.10000000000000002", "map\tq2\t0.1", "map\tq3\tinf"]
    ∃ r next turned lost, compare {} baseline comparison = .ok r ∧
      r.entries = [next, turned, lost] ∧ next.comparison.toBits = next.baseline.toBits + 1 ∧
      zero.lt next.delta = true ∧ turned.delta.lt zero = true ∧ lost.delta = .nan := by
  intro baseline comparison
  have hrun : ((compare {} baseline comparison).toOption.map fun r =>
      r.entries.map fun e =>
        (e.verdict, zero.lt e.baseline, e.baseline.isInfinite, e.comparison.isInfinite,
          e.comparison.toBits == e.baseline.toBits + 1)) =
        some [(.better, true, false, false, true), (.better, false, false, false, false),
          (.better, false, true, true, false)] := by
    decide +kernel
  obtain ⟨r, hr, hentries⟩ := exists_ok_of_map hrun
  rw [List.map_eq_cons_iff] at hentries
  obtain ⟨next, rest, hentries, hnext, hrest⟩ := hentries
  rw [List.map_eq_cons_iff] at hrest
  obtain ⟨turned, rest', rfl, hturned, hrest⟩ := hrest
  rw [List.map_eq_singleton_iff] at hrest
  obtain ⟨lost, rfl, hlost⟩ := hrest
  simp only [Prod.mk.injEq, beq_iff_eq] at hnext hturned hlost
  have hdelta := delta_of_verdict hr
  rw [hentries, List.forall_mem_cons, List.forall_mem_cons, List.forall_mem_singleton] at hdelta
  obtain ⟨⟨hfirst, -⟩, ⟨hsecond, -⟩, ⟨hthird, -⟩⟩ := hdelta
  obtain ⟨-, -, hpos, -⟩ := (hfirst (by simp [hnext])).2.1 (by simp [hnext])
  obtain ⟨-, -, -, hneg⟩ := (hsecond (by simp [hturned])).2.1 (by simp [hturned])
  refine ⟨r, next, turned, lost, hr, hentries, hnext.2.2.2.2, ?_, ?_, ?_⟩
  · exact hpos.mpr (by simp [hnext])
  · exact hneg.mpr (by simp [hturned])
  · exact (hthird (by simp [hlost])).2.2 ⟨hlost.2.2.1, hlost.2.2.2.1⟩

end Comparison
end EvalDiff
