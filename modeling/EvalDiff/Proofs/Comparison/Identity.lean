import EvalDiff.Proofs.Comparison.Delta
import EvalDiff.Proofs.Comparison.Summary

/-!
# A log against itself

A log has no changes over itself: `compare_self_no_change`.  Every row is aligned with itself, so
strict mode makes no difference, and a value is neither above nor below itself, be it zero, infinite
or not a number.  What is left to go wrong is a row that cannot be read, `Unreadable`.
-/

namespace EvalDiff

theorem Binary64.not_lt_self (x : Binary64) : ¬ x.lt x = true := by
  cases x with
  | nan => exact Bool.false_ne_true
  | number s a ha => simp [lt]

theorem Verdict.ofValues_self (x : Binary64) : ofValues x x = .unchanged := by
  rw [Comparison.RowPair.ofValues_eq_unchanged_iff, or_self]
  exact x.not_lt_self

namespace Comparison

open Binary64 Log Report

/-- A row with the marker that has no category, or no value where one is looked for. -/
inductive Unreadable (o : Options) (row : String) : Prop where
  | noCategory (hm : Marked o.marker row) (h : (fields row)[1]? = none)
  | tooFewFields {category : String} (hm : Marked o.marker row)
    (hc : (fields row)[1]? = some category) (hne : category ≠ o.aggregate)
    (h : (fields row).length < 3)
  | noValue {category : String} {fault : TokenFault} (hm : Marked o.marker row)
    (hc : (fields row)[1]? = some category) (hne : category ≠ o.aggregate)
    (h : ofToken (valueToken row) = .error fault)

variable {o : Options} {row category : String} {log : List String} {line : Nat}

/-! ### One row -/

theorem checkAligned_self (hm : Marked o.marker row) (hc : (fields row)[1]? = some category) :
    checkAligned o line category row = .ok () := by
  rw [checkAligned, if_pos ((isMarked_iff _ _).mpr hm), categoryAt, category?_eq, hc]
  exact if_pos rfl

theorem compareLine_self (o : Options) (line : Nat) (row : String) :
    compareLine { o with strict := true } line row row =
      compareLine { o with strict := false } line row row := by
  unfold compareLine
  by_cases hm : Marked o.marker row
  · rw [if_pos ((isMarked_iff _ _).mpr hm), if_pos ((isMarked_iff _ _).mpr hm), categoryAt,
      category?_eq]
    cases hc : (fields row)[1]? with
    | none => rfl
    | some category =>
      have haligned : checkAligned { o with strict := true } line category row = .ok () :=
        checkAligned_self hm hc
      show (if category = o.aggregate then _ else _) = if category = o.aggregate then _ else _
      simp [haligned, bind, Except.bind]
  · have hnot : ¬ isMarked o.marker row = true := mt (isMarked_iff _ _).mp hm
    rw [if_neg hnot, if_neg hnot]

namespace RowPair

variable {p : RowPair}

/-- A readable row meets all demands on a pair of it and itself. -/
theorem acceptable_self_iff (h : p.comparison = p.baseline) :
    p.Acceptable o ↔ ¬ Unreadable o p.baseline := by
  constructor
  · intro ha hu
    cases hu with
    | noCategory hm hnone =>
      obtain ⟨category, hc, -⟩ := ha hm
      rw [hnone] at hc
      cases hc
    | tooFewFields hm hc hne hlt =>
      have hfields := (comparable_of_acceptable ha ⟨hm, _, hc, hne⟩).baseline_fields
      omega
    | noValue hm hc hne hfault =>
      obtain ⟨x, y, hvalues⟩ := (comparable_of_acceptable ha ⟨hm, _, hc, hne⟩).values
      rw [hvalues.baseline] at hfault
      cases hfault
  · intro hu hm
    cases hc : (fields p.baseline)[1]? with
    | none => exact absurd (.noCategory hm hc) hu
    | some category =>
      refine ⟨category, rfl, fun hne => ?_⟩
      have hfields : 3 ≤ (fields p.baseline).length :=
        Nat.le_of_not_lt fun hlt => hu (.tooFewFields hm hc hne hlt)
      cases hx : ofToken (valueToken p.baseline) with
      | error fault => exact absurd (.noValue hm hc hne hx) hu
      | ok x =>
        have hdefined : ¬ (x.isZero = true ∧ (x.lt x = true ∨ x.lt x = true)) := by
          simp [not_lt_self]
        exact
          { aligned := fun _ => ⟨h ▸ hm, by rw [h]⟩
            baseline_fields := hfields
            comparison_fields := h ▸ hfields
            values := ⟨x, x, hx, h ▸ hx, hdefined⟩ }

/-- Nothing but an unreadable row is at fault in a pair of a row and itself. -/
theorem badRow_of_outcome_self {e : Error} (h : p.comparison = p.baseline)
    (he : p.outcome o = .error e) : ∃ fault, e = .badRow p.line fault := by
  obtain ⟨check, hf⟩ := exists_fails_of_firstFailure (firstFailure_of_outcome he)
  cases hf with
  | baselineCategory | comparisonCategory | baselineFields | baselineValue | comparisonFields
  | comparisonValue => exact ⟨_, rfl⟩
  | comparisonMarker hp _ hm =>
    rw [h] at hm
    exact absurd hp.1 hm
  | sameCategory _ _ hc hd hne =>
    rw [h, hc] at hd
    exact absurd (Option.some.inj hd).symm hne
  | nonzeroBaseline _ _ hx hy _ hlt =>
    rw [h, hx] at hy
    cases hy
    exact absurd (or_self_iff.mp hlt) (not_lt_self _)

end RowPair

/-! ### Whole logs -/

theorem compareLines_self (o : Options) (line : Nat) (log : List String) :
    compareLines { o with strict := true } line (log.zip log) =
      compareLines { o with strict := false } line (log.zip log) := by
  induction log generalizing line with
  | nil => rfl
  | cons row rest ih =>
    rw [List.zip_cons_cons, compareLines, compareLines, compareLine_self, ih]

theorem compare_self_strict (o : Options) (log : List String) :
    compare { o with strict := true } log log = compare { o with strict := false } log log := by
  rw [compare, compare, if_pos rfl, if_pos rfl, compareLines_self]

theorem comparison_eq_of_mem {p : RowPair} (h : p ∈ pairs log log) :
    p.comparison = p.baseline ∧ p.baseline ∈ log := by
  obtain ⟨i, hi⟩ := List.mem_iff_getElem?.mp h
  obtain ⟨-, hb, hc⟩ := getElem?_pairs_eq_some_iff.mp hi
  exact ⟨Option.some.inj (hc.symm.trans hb), List.mem_of_getElem? hb⟩

theorem exists_mem_pairs (h : row ∈ log) : ∃ p ∈ pairs log log, p.baseline = row := by
  obtain ⟨i, hi⟩ := List.mem_iff_getElem?.mp h
  exact ⟨⟨i + 1, row, row⟩,
    List.mem_of_getElem? (getElem?_pairs_eq_some_iff.mpr ⟨rfl, hi, hi⟩), rfl⟩

theorem acceptable_pairs_self_iff (o : Options) (log : List String) :
    (∀ p ∈ pairs log log, p.Acceptable o) ↔ ∀ row ∈ log, ¬ Unreadable o row := by
  constructor
  · intro h row hrow
    obtain ⟨p, hp, rfl⟩ := exists_mem_pairs hrow
    exact (RowPair.acceptable_self_iff (comparison_eq_of_mem hp).1).mp (h p hp)
  · intro h p hp
    obtain ⟨hsame, hrow⟩ := comparison_eq_of_mem hp
    exact (RowPair.acceptable_self_iff hsame).mpr (h p.baseline hrow)

theorem compare_self_eq_ok_iff (o : Options) (log : List String) :
    (∃ r, compare o log log = .ok r) ↔ ∀ row ∈ log, ¬ Unreadable o row := by
  rw [← acceptable_pairs_self_iff]
  constructor
  · rintro ⟨r, hr⟩
    exact (compare_eq_ok_iff.mp hr).2.1
  · intro h
    exact ⟨_, compare_eq_ok_iff.mpr ⟨rfl, h, rfl⟩⟩

theorem badRow_of_compare_self {e : Error} (h : compare o log log = .error e) :
    ∃ line fault, e = .badRow line fault := by
  obtain ⟨before, p, after, hsplit, -, hp⟩ := (compare_eq_error_iff rfl).mp h
  have hmem : p ∈ pairs log log := by simp [hsplit]
  exact ⟨p.line, RowPair.badRow_of_outcome_self (comparison_eq_of_mem hmem).1 hp⟩

theorem unchanged_of_compare_self {r : Report} {e : Entry} (h : compare o log log = .ok r)
    (he : e ∈ r.entries) : e.verdict = .unchanged ∧ e.delta = zero := by
  obtain ⟨p, hp, -, -, hd⟩ := exists_describes_of_mem h he
  have hcomparison := hd.comparison
  rw [(comparison_eq_of_mem hp).1, hd.baseline] at hcomparison
  have hverdict : e.verdict = .unchanged := by
    rw [hd.verdict, Except.ok.inj hcomparison, Verdict.ofValues_self]
  exact ⟨hverdict, by rw [hd.delta, if_pos hverdict]⟩

/-- A report without changes counts nothing as better and has the floor for worse. -/
theorem summary_of_unchanged {entries : List Entry} (h : ∀ e ∈ entries, e.verdict = .unchanged) :
    let s := (Tally.ofEntries entries).summary
    s.better = zero ∧ s.worse = one ∧ s.ratio = zero := by
  have hnone : ∀ v, v ≠ .unchanged → entries.countP (·.verdict == v) = 0 := by
    intro v hv
    rw [List.countP_eq_zero]
    intro e he
    simp [h e he, hv.symm]
  have hcounts := Tally.counts_ofEntries_min entries
  have hbetter : IsNat (Tally.ofEntries entries).better
      (min (entries.countP (·.verdict == .better)) (2 ^ 53)) := hcounts .better
  have hworse := hcounts.summary_worse
  rw [hnone .better (by decide)] at hbetter
  rw [hnone .worse (by decide)] at hworse
  have hzero : (Tally.ofEntries entries).summary.better = zero := hbetter.unique isNat_zero
  have hone : (Tally.ofEntries entries).summary.worse = one := hworse.unique isNat_one
  refine ⟨hzero, hone, ?_⟩
  show (Tally.ofEntries entries).summary.better / (Tally.ofEntries entries).summary.worse = zero
  rw [hzero, hone]
  decide +kernel

/-- A log compared with itself fails, in both modes alike, exactly for a row that cannot be read.
Otherwise all its entries are unchanged, with a delta of zero, and the summary is that of no change.
-/
theorem compare_self_no_change (o : Options) (log : List String) :
    compare { o with strict := true } log log = compare { o with strict := false } log log ∧
      ((∃ e, compare o log log = .error e) ↔ ∃ row ∈ log, Unreadable o row) ∧
      (∀ e, compare o log log = .error e → ∃ line fault, e = .badRow line fault) ∧
      ∀ r, compare o log log = .ok r →
        (∀ e ∈ r.entries, e.verdict = .unchanged ∧ e.delta = zero) ∧
          r.summary.better = zero ∧ r.summary.worse = one ∧ r.summary.ratio = zero ∧
          r.hasRegressions = false := by
  refine ⟨compare_self_strict o log, ?_, fun e => badRow_of_compare_self, fun r hr => ?_⟩
  · have hiff := compare_self_eq_ok_iff o log
    cases hcompare : compare o log log with
    | ok r =>
      have hreadable := hiff.mp ⟨r, hcompare⟩
      refine iff_of_false nofun ?_
      rintro ⟨row, hrow, hu⟩
      exact hreadable row hrow hu
    | error e =>
      refine iff_of_true ⟨e, rfl⟩ (Classical.byContradiction fun hnone => ?_)
      obtain ⟨r, hr⟩ := hiff.mpr fun row hrow hu => hnone ⟨row, hrow, hu⟩
      rw [hcompare] at hr
      cases hr
  · have hentries : ∀ e ∈ r.entries, e.verdict = .unchanged ∧ e.delta = zero :=
      fun e he => unchanged_of_compare_self hr he
    have hsummary : r.summary = (Tally.ofEntries r.entries).summary := by
      obtain ⟨-, -, rfl⟩ := compare_eq_ok_iff.mp hr
      rfl
    obtain ⟨hbetter, hworse, hratio⟩ := summary_of_unchanged fun e he => (hentries e he).1
    rw [← hsummary] at hbetter hworse hratio
    refine ⟨hentries, hbetter, hworse, hratio, ?_⟩
    rw [hasRegressions, List.any_eq_false]
    intro e he
    simp [(hentries e he).1]

/-- A zero, an infinity and a value that is not a number. -/
example :
    let log := ["map\tq1\t-0", "map\tq2\tinf", "map\tq3\tnan"]
    (compare {} log log).toOption.map (fun r => r.entries.map fun e => (e.category, e.verdict)) =
      some [("q1", .unchanged), ("q2", .unchanged), ("q3", .unchanged)] := by
  decide +kernel

end Comparison
end EvalDiff
