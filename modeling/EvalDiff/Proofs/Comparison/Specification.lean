import EvalDiff.Proofs.Comparison.Walk
import EvalDiff.Proofs.Lists

/-!
# What a comparison answers

When two logs are compared at all, what the report lists, and which of many faults is the one
reported.
-/

namespace EvalDiff
namespace Comparison

open Log Report

theorem RowPair.yield?_of_acceptable {o : Options} {p : RowPair} (h : p.Acceptable o) :
    (p.Compared o → ∃ e, p.yield? o = some e ∧ p.Describes e) ∧
      (¬ p.Compared o → p.yield? o = none) := by
  obtain ⟨found, hfound⟩ := (exists_outcome_eq_ok_iff o p).mpr h
  have hentry : p.yield? o = found := by rw [yield?, hfound]
  rw [hentry]
  cases found with
  | none => exact ⟨fun hp => absurd hp (not_compared_of_outcome hfound), fun _ => rfl⟩
  | some e =>
    obtain ⟨hp, hd⟩ := describes_of_outcome hfound
    exact ⟨fun _ => ⟨e, rfl, hd⟩, fun hn => absurd hp hn⟩

/-- The entries stand for the compared pairs, one for each and in their order. -/
theorem forall₂_describes_entries {o : Options} {ps : List RowPair}
    (h : ∀ p ∈ ps, p.Acceptable o) :
    List.Forall₂ RowPair.Describes (ps.filter (·.Compared o)) (ps.filterMap (·.yield? o)) := by
  induction ps with
  | nil => exact .nil
  | cons p rest ih =>
    have hrest := ih fun q hq => h q (List.mem_cons_of_mem _ hq)
    have hp := RowPair.yield?_of_acceptable (h p (List.mem_cons_self ..))
    by_cases hc : p.Compared o
    · obtain ⟨e, he, hd⟩ := hp.1 hc
      rw [List.filter_cons_of_pos (by simpa using hc), List.filterMap_cons_some he]
      exact .cons hd hrest
    · rw [List.filter_cons_of_neg (by simpa using hc), List.filterMap_cons_none (hp.2 hc)]
      exact hrest

/-- Logs of the same length are compared exactly if every pair of rows is acceptable, and the
report then has one entry for each compared pair, which says what stands there. -/
theorem compare_success_spec (o : Options) (baseline comparison : List String)
    (h : baseline.length = comparison.length) :
    ((∃ r, compare o baseline comparison = .ok r) ↔
        ∀ p ∈ pairs baseline comparison, p.Acceptable o) ∧
      ∀ r, compare o baseline comparison = .ok r →
        r.metric = o.marker ∧
          List.Forall₂ RowPair.Describes
            ((pairs baseline comparison).filter (·.Compared o)) r.entries := by
  refine ⟨⟨?_, fun hall => ⟨_, compare_eq_ok_iff.mpr ⟨h, hall, rfl⟩⟩⟩, ?_⟩
  · rintro ⟨r, hr⟩
    exact (compare_eq_ok_iff.mp hr).2.1
  · intro r hr
    obtain ⟨-, hall, rfl⟩ := compare_eq_ok_iff.mp hr
    exact ⟨rfl, forall₂_describes_entries hall⟩

/-- A row of another measure and the row of the aggregate leave no entry. -/
theorem compare_success_spec_four_rows :
    let baseline := ["map\tq1\t0.5", "P_10\tq1\t0.3", "map\tall\tn/a", "map\tq2\tx\t0"]
    let comparison := ["map\tq1\t0.25", "", "-", "\t\t0\r"]
    baseline.length = comparison.length ∧
      ∃ r, compare {} baseline comparison = .ok r ∧ r.metric = "map" ∧
        List.Forall₂ RowPair.Describes
          [⟨1, "map\tq1\t0.5", "map\tq1\t0.25"⟩, ⟨4, "map\tq2\tx\t0", "\t\t0\r"⟩] r.entries := by
  intro baseline comparison
  have hspec := compare_success_spec {} baseline comparison rfl
  have hrows : (pairs baseline comparison).filter (·.Compared {}) =
      [⟨1, "map\tq1\t0.5", "map\tq1\t0.25"⟩, ⟨4, "map\tq2\tx\t0", "\t\t0\r"⟩] := by
    decide +kernel
  have hok : (compare {} baseline comparison).isOk = true := by decide +kernel
  obtain ⟨r, hr⟩ := exists_ok_of_isOk hok
  obtain ⟨hmetric, hentries⟩ := hspec.2 r hr
  rw [hrows] at hentries
  exact ⟨rfl, r, hr, hmetric, hentries⟩

/-- A pair that ends a comparison also ends it in any other logs that agree with these up to
and including that pair. -/
theorem compare_error_of_take {o : Options} {baseline comparison : List String} {e : Error}
    {before : List RowPair} {p : RowPair} (after : List RowPair)
    (h : baseline.length = comparison.length)
    (hsplit : (pairs baseline comparison).take (before.length + 1) = before ++ p :: after)
    (hbefore : ∀ q ∈ before, q.Acceptable o) (hp : p.outcome o = .error e) :
    compare o baseline comparison = .error e := by
  rw [compare_eq_error_iff h]
  refine ⟨before, p, after ++ (pairs baseline comparison).drop (before.length + 1), ?_,
    hbefore, hp⟩
  rw [← List.cons_append, ← List.append_assoc, ← hsplit, List.take_append_drop]

/-- An error with a line is what the pair at that line comes to. -/
theorem exists_outcome_of_compare {o : Options} {baseline comparison : List String} {e : Error}
    {k : Nat} (h : compare o baseline comparison = .error e) (hk : e.line? = some k) :
    baseline.length = comparison.length ∧
      ∃ p ∈ pairs baseline comparison, p.line = k ∧ p.outcome o = .error e := by
  by_cases hlen : baseline.length = comparison.length
  · obtain ⟨before, p, after, hsplit, -, hp⟩ := (compare_eq_error_iff hlen).mp h
    have hline := (RowPair.line?_of_outcome hp).symm.trans hk
    refine ⟨hlen, p, ?_, Option.some.inj hline, hp⟩
    rw [hsplit]
    exact List.mem_append_right _ (List.mem_cons_self ..)
  · rw [compare_of_length_ne hlen] at h
    cases h
    cases hk

/-- No comparison gets past a pair that is not acceptable. -/
theorem compare_error_of_not_acceptable {o : Options} {baseline comparison : List String}
    {p : RowPair} (hlen : baseline.length = comparison.length)
    (hp : p ∈ pairs baseline comparison) (h : ¬ p.Acceptable o) :
    ∃ e l, compare o baseline comparison = .error e ∧ e.line? = some l ∧ l ≤ p.line := by
  cases hcompare : compare o baseline comparison with
  | ok r => exact absurd ((compare_eq_ok_iff.mp hcompare).2.1 p hp) h
  | error e =>
    obtain ⟨before, q, after, hsplit, hbefore, hq⟩ := (compare_eq_error_iff hlen).mp hcompare
    obtain ⟨-, hline⟩ := pairs_eq_append hsplit
    refine ⟨e, before.length + 1, rfl, ?_, ?_⟩
    · rw [RowPair.line?_of_outcome hq, hline]
    · -- Otherwise the pair would be among those in front of the error.
      refine Decidable.byContradiction fun hlt => h (hbefore p ?_)
      obtain ⟨i, hi⟩ := List.mem_iff_getElem?.mp hp
      have hline := (getElem?_pairs_eq_some_iff.mp hi).1
      rw [hsplit, List.getElem?_append_left (by omega)] at hi
      exact List.mem_of_getElem? hi

theorem compare_failure_spec (o : Options) (baseline comparison : List String) (e : Error)
    (h : compare o baseline comparison = .error e) :
    (baseline.length ≠ comparison.length →
        e = .lengthsDiffer baseline.length comparison.length) ∧
      (baseline.length = comparison.length →
        ∃ k p, e.line? = some k ∧ 1 ≤ k ∧ k ≤ baseline.length ∧
          (pairs baseline comparison)[k - 1]? = some p ∧
          (∃ r, compare o (baseline.take (k - 1)) (comparison.take (k - 1)) = .ok r) ∧
          FirstFailure o p Check.order e ∧
          ∀ baseline' comparison' : List String, baseline'.length = comparison'.length →
            baseline'.take k = baseline.take k → comparison'.take k = comparison.take k →
            compare o baseline' comparison' = .error e) := by
  refine ⟨fun hne => ?_, fun heq => ?_⟩
  · rw [compare_of_length_ne hne] at h
    cases h
    rfl
  obtain ⟨before, p, after, hsplit, hbefore, hp⟩ := (compare_eq_error_iff heq).mp h
  obtain ⟨hat, hline⟩ := pairs_eq_append hsplit
  have hlength : before.length + 1 ≤ baseline.length := by
    have := length_pairs heq
    rw [hsplit, List.length_append, List.length_cons] at this
    omega
  refine ⟨before.length + 1, p, ?_, Nat.le_add_left 1 _, hlength, hat, ?_,
    RowPair.firstFailure_of_outcome hp, ?_⟩
  · rw [RowPair.line?_of_outcome hp, hline]
  · refine ⟨_, compare_eq_ok_iff.mpr ⟨?_, ?_, rfl⟩⟩
    · rw [List.length_take, List.length_take, heq]
    · intro q hq
      rw [← take_pairs, hsplit, Nat.add_sub_cancel, List.take_left] at hq
      exact hbefore q hq
  · intro baseline' comparison' heq' hb hc
    refine compare_error_of_take [] heq' ?_ hbefore hp
    rw [take_pairs, hb, hc, ← take_pairs, hsplit, List.take_append, Nat.add_sub_cancel_left,
      List.take_of_length_le (Nat.le_add_right _ 1)]
    rfl

/-- The second row lacks fields on both sides, but in strict mode the missing category is found
first, and the broken third row is never reached. -/
theorem compare_failure_spec_three_rows :
    let o : Options := { strict := true }
    let baseline := ["map\tq1\t0.5", "map\tq2", "map"]
    let comparison := ["map\tq1\t0.25", "map", "P_10"]
    compare o baseline comparison = .error (.badRow 2 .noCategory) ∧
      (∃ r, compare o ["map\tq1\t0.5"] ["map\tq1\t0.25"] = .ok r) ∧
      FirstFailure o ⟨2, "map\tq2", "map"⟩ Check.order (.badRow 2 .noCategory) := by
  intro o baseline comparison
  have herror : compare o baseline comparison = .error (.badRow 2 .noCategory) := by
    decide +kernel
  obtain ⟨k, p, hline, -, -, hp, hok, hfirst, -⟩ :=
    (compare_failure_spec o baseline comparison _ herror).2 rfl
  cases hline
  cases hp
  exact ⟨herror, hok, hfirst⟩

end Comparison
end EvalDiff
