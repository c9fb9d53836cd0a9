import EvalDiff.Proofs.Comparison.Reordering
import EvalDiff.Proofs.Comparison.Influence

/-!
# Longer markers

A longer marker passes over more rows.  Without strict mode it makes no other difference, so what it
reports is a part of the other report, and it finds no fault that the shorter marker gets past.
-/

namespace EvalDiff
namespace Comparison

open Log Report

/-- The row at a line carries the marker. -/
def MarkedAt (marker : String) (rows : List String) (line : Nat) : Prop :=
  ∃ row ∈ rows[line - 1]?, Marked marker row

instance (marker : String) (rows : List String) (line : Nat) :
    Decidable (MarkedAt marker rows line) :=
  inferInstanceAs (Decidable (∃ row ∈ rows[line - 1]?, Marked marker row))

variable {marker marker' aggregate : String} {baseline comparison : List String} {p : RowPair}

theorem markedAt_iff (hp : p ∈ pairs baseline comparison) :
    MarkedAt marker baseline p.line ↔ Marked marker p.baseline := by
  obtain ⟨i, hi⟩ := List.mem_iff_getElem?.mp hp
  obtain ⟨hline, hrow, -⟩ := getElem?_pairs_eq_some_iff.mp hi
  rw [MarkedAt, hline, Nat.add_sub_cancel, hrow]
  simp

namespace RowPair

/-- A row that the longer marker selects is compared in the same way. -/
theorem outcome_of_longer (h : marker.toList <+: marker'.toList)
    (hm : Marked marker' p.baseline) :
    p.outcome { marker := marker', aggregate, strict := false } =
      p.outcome { marker, aggregate, strict := false } := by
  have hshort : Marked marker p.baseline := h.trans hm
  rw [outcome_of_marked hm, outcome_of_marked hshort]
  simp only [Bool.false_eq_true, if_false]

theorem acceptable_of_longer (h : marker.toList <+: marker'.toList)
    (ha : p.Acceptable { marker, aggregate, strict := false }) :
    p.Acceptable { marker := marker', aggregate, strict := false } := by
  by_cases hm : Marked marker' p.baseline
  · rw [← exists_outcome_eq_ok_iff, outcome_of_longer h hm]
    exact (exists_outcome_eq_ok_iff _ p).mpr ha
  · exact fun hmarked => absurd hmarked hm

theorem yield?_of_longer (h : marker.toList <+: marker'.toList)
    (hp : p ∈ pairs baseline comparison) :
    p.yield? { marker := marker', aggregate, strict := false } =
      (p.yield? { marker, aggregate, strict := false }).filter
        (MarkedAt marker' baseline ·.line) := by
  by_cases hm : Marked marker' p.baseline
  · have hsame : p.yield? { marker := marker', aggregate, strict := false } =
        p.yield? { marker, aggregate, strict := false } := by
      rw [yield?, yield?, outcome_of_longer h hm]
    rw [hsame]
    cases hentry : p.yield? { marker, aggregate, strict := false } with
    | none => rfl
    | some e =>
      have hat : MarkedAt marker' baseline e.line :=
        line_of_yield? hentry ▸ (markedAt_iff hp).mpr hm
      rw [Option.filter_some_pos (by simpa using hat)]
  · have hnone : p.yield? { marker := marker', aggregate, strict := false } = none := by
      rw [yield?, outcome_of_skipped (.inl hm)]
    rw [hnone]
    cases hentry : p.yield? { marker, aggregate, strict := false } with
    | none => rfl
    | some e =>
      have hat : ¬ MarkedAt marker' baseline e.line :=
        line_of_yield? hentry ▸ mt (markedAt_iff hp).mp hm
      rw [Option.filter_some_neg (by simpa using hat)]

end RowPair

theorem compare_of_longer {r : Report} (h : marker.toList <+: marker'.toList)
    (hr : compare { marker, aggregate, strict := false } baseline comparison = .ok r) :
    compare { marker := marker', aggregate, strict := false } baseline comparison =
      .ok (Report.ofEntries marker' (r.entries.filter (MarkedAt marker' baseline ·.line))) := by
  obtain ⟨hlen, hall, rfl⟩ := compare_eq_ok_iff.mp hr
  refine compare_eq_ok_iff.mpr ⟨hlen, fun p hp => RowPair.acceptable_of_longer h (hall p hp), ?_⟩
  show Report.ofEntries marker' (((pairs baseline comparison).filterMap _).filter _) = _
  rw [List.filter_filterMap, List.filterMap_congr fun p hp => RowPair.yield?_of_longer h hp]

theorem compare_error_of_longer {e : Error} {k : Nat} (h : marker.toList <+: marker'.toList)
    (he : compare { marker := marker', aggregate, strict := false } baseline comparison = .error e)
    (hk : e.line? = some k) :
    ∃ f l, compare { marker, aggregate, strict := false } baseline comparison = .error f ∧
      f.line? = some l ∧ l ≤ k := by
  obtain ⟨hlen, p, hp, rfl, hout⟩ := exists_outcome_of_compare he hk
  refine compare_error_of_not_acceptable hlen hp fun ha => ?_
  exact RowPair.not_acceptable_of_outcome hout (RowPair.acceptable_of_longer h ha)

/-- A longer marker selects the entries of the rows that carry it, and where it fails the shorter
one has failed by then. -/
theorem longer_marker_selects (h : marker.toList <+: marker'.toList) (aggregate : String)
    (baseline comparison : List String) :
    (∀ r, compare { marker, aggregate, strict := false } baseline comparison = .ok r →
      ∃ s, compare { marker := marker', aggregate, strict := false } baseline comparison = .ok s ∧
        s.metric = marker' ∧
        s.entries = r.entries.filter (MarkedAt marker' baseline ·.line) ∧
        ∀ v, s.count v ≤ r.count v) ∧
    ∀ e k,
      compare { marker := marker', aggregate, strict := false } baseline comparison = .error e →
      e.line? = some k →
      ∃ f l, compare { marker, aggregate, strict := false } baseline comparison = .error f ∧
        f.line? = some l ∧ l ≤ k := by
  refine ⟨fun r hr => ⟨_, compare_of_longer h hr, rfl, rfl, fun v => ?_⟩, fun e k he hk =>
    compare_error_of_longer h he hk⟩
  exact List.filter_sublist.countP_le

/-- The longer marker drops the entry of the first row, and the fault of the second row remains
where the shorter marker stops at the first one. -/
theorem longer_marker_selects_cut :
    let baseline := ["map\tq1\t0.5", "map_cut_10\tq1\t0.5", "map_cut_10\tall\t1"]
    let comparison := ["map\tq1\t0.25", "map_cut_10\tq1\t0.75", "map_cut_10\tall\t-"]
    let faulty := ["map\tq1\t", "map_cut_10\tq1", "map_cut_10\tall\t1"]
    (∃ r s, compare { marker := "map" } baseline comparison = .ok r ∧
      compare { marker := "map_cut" } baseline comparison = .ok s ∧
      r.entries.map (·.line) = [1, 2] ∧ s.entries.map (·.line) = [2] ∧
      s.count .worse ≤ r.count .worse) ∧
    compare { marker := "map_cut" } baseline faulty = .error (.badRow 2 (.tooFewFields 2)) ∧
      ∃ f l, compare { marker := "map" } baseline faulty = .error f ∧ f.line? = some l ∧ l ≤ 2 := by
  intro baseline comparison faulty
  have hmarker : "map".toList <+: "map_cut".toList := by decide
  have herror : compare { marker := "map_cut" } baseline faulty =
      .error (.badRow 2 (.tooFewFields 2)) := by decide +kernel
  have hlines : ((compare { marker := "map" } baseline comparison).toOption.map fun r =>
      (r.entries.map (·.line))) = some [1, 2] := by decide +kernel
  obtain ⟨-, hfails⟩ := longer_marker_selects hmarker "all" baseline faulty
  refine ⟨?_, herror, hfails _ 2 herror rfl⟩
  obtain ⟨r, hr, hentries⟩ := exists_ok_of_map hlines
  obtain ⟨s, hs, -, hselected, hcount⟩ :=
    (longer_marker_selects hmarker "all" baseline comparison).1 r hr
  refine ⟨r, s, hr, hs, hentries, ?_, hcount .worse⟩
  have hfilter : s.entries.map (·.line) =
      (r.entries.map (·.line)).filter (MarkedAt "map_cut" baseline ·) := by
    rw [hselected, List.filter_map]
    rfl
  rw [hfilter, hentries]
  decide +kernel

end Comparison
end EvalDiff
