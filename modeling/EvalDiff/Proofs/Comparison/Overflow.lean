import EvalDiff.Proofs.Binary64.Overflow
import EvalDiff.Proofs.Comparison.Changes
import EvalDiff.Proofs.Comparison.Summary
import EvalDiff.Proofs.Report.Nulls

/-!
# Deltas of finite values

A comparison of finite values has a delta for every entry, and only an overflow of the quotient
makes one infinite.  The counts and the ratio are finite in any case, so the nulls in the JSON of
such a report are the deltas that have overflowed.
-/

namespace EvalDiff

namespace Binary64

theorem IsNat.isFinite {x : Binary64} {n : Nat} (h : IsNat x n) : x.isFinite = true := by
  obtain ⟨rank, hlt, rfl, -⟩ := h
  exact decide_eq_true hlt

/-- A token stands for a finite number. -/
def ReadsFinite (token : String) : Prop := ∃ x, ofToken token = .ok x ∧ x.isFinite = true

theorem readsFinite_iff (token : String) :
    ReadsFinite token ↔ (ofToken token).toOption.any isFinite = true := by
  rw [ReadsFinite]
  cases ofToken token with
  | ok x => simp [Except.toOption]
  | error fault => simp [Except.toOption]

instance (token : String) : Decidable (ReadsFinite token) :=
  decidable_of_iff _ (readsFinite_iff token).symm

end Binary64

namespace Comparison

open Binary64 Json Log Report

/-- All values that are compared are finite numbers. -/
def FiniteValues (o : Options) (baseline comparison : List String) : Prop :=
  ∀ p ∈ pairs baseline comparison, p.Compared o →
    ReadsFinite (valueToken p.baseline) ∧ ReadsFinite (valueToken p.comparison)

instance (o : Options) (baseline comparison : List String) :
    Decidable (FiniteValues o baseline comparison) :=
  inferInstanceAs (Decidable (∀ p ∈ pairs baseline comparison, _))

variable {o : Options} {baseline comparison : List String} {r : Report} {e : Entry}

theorem isFinite_values (h : compare o baseline comparison = .ok r)
    (hfinite : FiniteValues o baseline comparison) (he : e ∈ r.entries) :
    e.baseline.isFinite = true ∧ e.comparison.isFinite = true := by
  obtain ⟨p, hp, -, hc, hd⟩ := exists_describes_of_mem h he
  obtain ⟨⟨x, hx, hxf⟩, y, hy, hyf⟩ := hfinite p hp hc
  rw [hd.baseline, Except.ok.injEq] at hx
  rw [hd.comparison, Except.ok.injEq] at hy
  rw [hx, hy]
  exact ⟨hxf, hyf⟩

/-- The floor under the count of worse entries keeps the ratio finite. -/
theorem isFinite_summary (h : compare o baseline comparison = .ok r) :
    ∀ x ∈ r.summary.doubles, x.isFinite = true := by
  obtain ⟨hbetter, hunchanged, hworse⟩ := counts_of_compare h
  have hratio : r.summary.ratio = r.summary.better / r.summary.worse := by
    obtain ⟨-, -, rfl⟩ := compare_eq_ok_iff.mp h
    rfl
  obtain ⟨hlt, hdiv⟩ := hbetter.exists_div_eq hworse (Nat.le_max_left _ _)
  simp only [Summary.doubles, List.forall_mem_cons]
  refine ⟨hbetter.isFinite, hworse.isFinite, hunchanged.isFinite, ?_, List.forall_mem_nil _⟩
  rw [hratio, hdiv]
  exact decide_eq_true hlt

theorem isNaN_delta (h : compare o baseline comparison = .ok r) (he : e ∈ r.entries)
    (hb : e.baseline.isFinite = true) : e.delta.isNaN = false := by
  by_cases hsame : e.verdict = .unchanged
  · rw [delta_of_unchanged h he hsame]
    rfl
  · refine (nonzero_of_changed h he hsame fun hinfinite => ?_).1
    have hnumber : e.baseline.isNaN = false := by
      cases hx : e.baseline with
      | nan =>
        rw [hx] at hb
        cases hb
      | number => rfl
    have hnot := (isInfinite_eq_false_iff hnumber).mpr hb
    rw [hinfinite.1] at hnot
    cases hnot

theorem isFinite_delta_iff (h : compare o baseline comparison = .ok r) (he : e ∈ r.entries)
    (hb : e.baseline.isFinite = true) (hc : e.comparison.isFinite = true) :
    e.delta.isFinite = false ↔
      e.verdict ≠ .unchanged ∧ overflowBound * |e.baseline.toRat| ≤ |e.comparison.toRat| := by
  by_cases hsame : e.verdict = .unchanged
  · rw [delta_of_unchanged h he hsame]
    exact iff_of_false (by decide) fun hchanged => hchanged.1 hsame
  · rw [delta_of_changed h he hsame, isFinite_sub_one, ← Bool.not_eq_true,
      isFinite_div_iff hb hc (isZero_baseline_of_changed h he hsame), not_lt]
    exact (and_iff_right hsame).symm

theorem countP_entry_doubles {entries : List Entry}
    (h : ∀ e ∈ entries, e.baseline.isFinite = true ∧ e.comparison.isFinite = true) :
    ((entries.flatMap Entry.doubles).countP fun x => !x.isFinite) =
      entries.countP fun e => !e.delta.isFinite := by
  induction entries with
  | nil => rfl
  | cons e entries ih =>
    obtain ⟨⟨hb, hc⟩, hrest⟩ := List.forall_mem_cons.mp h
    rw [List.flatMap_cons, List.countP_append, ih hrest, List.countP_cons, Nat.add_comm]
    simp [Entry.doubles, List.countP_cons, hb, hc]

theorem countP_doubles (h : compare o baseline comparison = .ok r)
    (hfinite : FiniteValues o baseline comparison) :
    (r.doubles.countP fun x => !x.isFinite) = r.entries.countP fun e => !e.delta.isFinite := by
  have hsummary : (r.summary.doubles.countP fun x => !x.isFinite) = 0 :=
    List.countP_eq_zero.mpr fun x hx => by simp [isFinite_summary h x hx]
  rw [doubles, List.countP_append, hsummary, Nat.add_zero,
    countP_entry_doubles fun e he => isFinite_values h hfinite he]

/-- Between finite values every delta is a number.  It is infinite exactly if the comparison's value
is so many times the baseline's that their quotient overflows, and for each such delta, and for
nothing else, there is a null in the JSON of the report, in the row of its entry.  The counts and
the ratio are finite. -/
theorem finite_up_to_overflow (h : compare o baseline comparison = .ok r)
    (hfinite : FiniteValues o baseline comparison) :
    (∀ e ∈ r.entries, e.delta.isNaN = false ∧
      (e.delta.isFinite = false ↔
        e.verdict ≠ .unchanged ∧ overflowBound * |e.baseline.toRat| ≤ |e.comparison.toRat|)) ∧
    (∀ x ∈ r.summary.doubles, x.isFinite = true) ∧
    ∀ color format, format = .json ∨ format = .jsonPretty →
      ∃ v rows, read? (r.render format color).toList = some v ∧
        (v.nulls = r.entries.countP fun e => !e.delta.isFinite) ∧
        HasMember v "results" (.array rows) ∧ List.Forall₂ IsRowWithDelta r.entries rows := by
  refine ⟨fun e he => ?_, isFinite_summary h, fun color format hformat => ?_⟩
  · obtain ⟨hb, hc⟩ := isFinite_values h hfinite he
    exact ⟨isNaN_delta h he hb, isFinite_delta_iff h he hb hc⟩
  · obtain ⟨v, rows, hread, hcount, hrows⟩ := exists_read_nulls r color hformat
    exact ⟨v, rows, hread, hcount.trans (countP_doubles h hfinite), hrows⟩

/-- One quotient of one and a half, and one of 10^310. -/
theorem finite_up_to_overflow_two_rows :
    let baseline := ["map\tq1\t0.5", "map\tq2\t1e-155"]
    let comparison := ["map\tq1\t0.75", "map\tq2\t1e155"]
    FiniteValues {} baseline comparison ∧
      ∃ r half huge v first second, compare {} baseline comparison = .ok r ∧
        r.entries = [half, huge] ∧ half.delta.isFinite = true ∧ huge.delta.isNaN = false ∧
        overflowBound * |huge.baseline.toRat| ≤ |huge.comparison.toRat| ∧
        read? (r.render .jsonPretty false).toList = some v ∧ v.nulls = 1 ∧
        HasMember v "results" (.array [first, second]) ∧
        HasMember second "relative_delta" .null := by
  intro baseline comparison
  have hfinite : FiniteValues {} baseline comparison := by decide +kernel
  have hrun : ((compare {} baseline comparison).toOption.map fun r =>
      r.entries.map fun e => e.delta.isFinite) = some [true, false] := by
    decide +kernel
  obtain ⟨r, hr, hentries⟩ := exists_ok_of_map hrun
  rw [List.map_eq_cons_iff] at hentries
  obtain ⟨half, rest, hentries, hhalf, hrest⟩ := hentries
  rw [List.map_eq_singleton_iff] at hrest
  obtain ⟨huge, rfl, hhuge⟩ := hrest
  obtain ⟨hdeltas, -, hnulls⟩ := finite_up_to_overflow hr hfinite
  obtain ⟨v, rows, hread, hcount, hresults, hrows⟩ := hnulls false .jsonPretty (.inr rfl)
  rw [hentries] at hrows hcount
  cases hrows with
  | @cons _ first _ _ _ hrows =>
    cases hrows with
    | @cons _ second _ _ hsecond hrows =>
      cases hrows
      obtain ⟨delta, hdelta, hnull⟩ := hsecond
      rw [hnull.mpr hhuge] at hdelta
      obtain ⟨hnumber, hbound⟩ := hdeltas huge (by simp [hentries])
      refine ⟨hfinite, r, half, huge, v, first, second, hr, hentries, hhalf, hnumber,
        (hbound.mp hhuge).2, hread, ?_, hresults, hdelta⟩
      rw [hcount]
      simp [hhalf, hhuge]

/-- Between the finite values 10^-155 and 10^155 the delta is infinite, and null in JSON. -/
theorem finite_values_infinite_delta :
    let baseline := ["map\tq1\t1e-155"]
    let comparison := ["map\tq1\t1e155"]
    FiniteValues {} baseline comparison ∧
      ∃ r e v, compare {} baseline comparison = .ok r ∧ r.entries = [e] ∧
        e.delta = infinity false ∧ read? (r.render .json false).toList = some v ∧ v.nulls = 1 := by
  intro baseline comparison
  have hfinite : FiniteValues {} baseline comparison := by decide +kernel
  have hrun : ((compare {} baseline comparison).toOption.map fun r =>
      r.entries.map (·.delta)) = some [infinity false] := by
    decide +kernel
  obtain ⟨r, hr, hentries⟩ := exists_ok_of_map hrun
  obtain ⟨e, hentries, hdelta⟩ := List.map_eq_singleton_iff.mp hentries
  obtain ⟨v, -, hread, hcount, -⟩ := exists_read_nulls r false (.inl rfl)
  have hover : e.delta.isFinite = false := by
    rw [hdelta]
    decide
  refine ⟨hfinite, r, e, v, hr, hentries, hdelta, hread, ?_⟩
  rw [hcount, countP_doubles hr hfinite, hentries]
  simp [hover]

end Comparison
end EvalDiff
