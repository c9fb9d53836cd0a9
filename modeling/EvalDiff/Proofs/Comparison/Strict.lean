import EvalDiff.Proofs.Comparison.Specification

/-!
# Strict mode

Strict mode adds demands to a pair of rows and changes nothing else: what it accepts it
reports as the trusting mode does, and what it adds to the errors comes at an earlier line or
at the same one.
-/

namespace EvalDiff
namespace Comparison

open Log Report

/-- The comparison row at a line carries the marker and the category of the baseline row. -/
def AlignedAt (marker : String) (baseline comparison : List String) (line : Nat) : Prop :=
  ∃ p, (pairs baseline comparison)[line - 1]? = some p ∧ p.Aligned marker

namespace RowPair

variable {marker aggregate : String} {p : RowPair}

theorem acceptable_strict_iff :
    p.Acceptable { marker, aggregate, strict := true } ↔
      p.Acceptable { marker, aggregate, strict := false } ∧
        (p.Compared { marker, aggregate } → p.Aligned marker) := by
  constructor
  · intro h
    refine ⟨fun hm => ?_, fun hp => (comparable_of_acceptable h hp).aligned rfl⟩
    obtain ⟨category, hc, hcomparable⟩ := h hm
    refine ⟨category, hc, fun hne => ?_⟩
    obtain ⟨-, hb, hn, hv⟩ := hcomparable hne
    exact ⟨nofun, hb, hn, hv⟩
  · rintro ⟨h, ha⟩ hm
    obtain ⟨category, hc, hcomparable⟩ := h hm
    refine ⟨category, hc, fun hne => ?_⟩
    obtain ⟨-, hb, hn, hv⟩ := hcomparable hne
    exact ⟨fun _ => ha ⟨hm, category, hc, hne⟩, hb, hn, hv⟩

theorem Describes.unique {e f : Entry} (he : p.Describes e) (hf : p.Describes f) : e = f := by
  have hline := he.line.trans hf.line.symm
  have hcategory := Option.some.inj (he.category.symm.trans hf.category)
  have hbaseline := Except.ok.inj (he.baseline.symm.trans hf.baseline)
  have hcomparison := Except.ok.inj (he.comparison.symm.trans hf.comparison)
  have hverdict : e.verdict = f.verdict := by
    rw [he.verdict, hf.verdict, hbaseline, hcomparison]
  have hdelta : e.delta = f.delta := by
    rw [he.delta, hf.delta, hverdict, hbaseline, hcomparison]
  cases e
  cases f
  simp_all

/-- What strict mode accepts it makes the same entry of. -/
theorem yield?_strict (h : p.Acceptable { marker, aggregate, strict := true }) :
    p.yield? { marker, aggregate, strict := true } =
      p.yield? { marker, aggregate, strict := false } := by
  have hs := yield?_of_acceptable h
  have hl := yield?_of_acceptable (acceptable_strict_iff.mp h).1
  by_cases hp : p.Compared { marker, aggregate }
  · obtain ⟨e, he, hde⟩ := hs.1 hp
    obtain ⟨f, hf, hdf⟩ := hl.1 hp
    rw [he, hf, hde.unique hdf]
  · rw [hs.2 hp, hl.2 hp]

/-- A pair that only strict mode refuses is refused for its marker or its category. -/
theorem misaligned_of_outcome_strict {e : Error}
    (h : p.Acceptable { marker, aggregate, strict := false })
    (he : p.outcome { marker, aggregate, strict := true } = .error e) :
    ∃ fault, e = .misaligned p.line fault := by
  have hpass := not_fails_of_acceptable h
  obtain ⟨check, hf⟩ := exists_fails_of_firstFailure (firstFailure_of_outcome he)
  cases hf with
  | comparisonMarker => exact ⟨_, rfl⟩
  | sameCategory => exact ⟨_, rfl⟩
  | comparisonCategory hp _ hnone =>
    -- A row with a value has a category.
    have hfields := (comparable_of_acceptable h hp).comparison_fields
    have hlength := List.getElem?_eq_none_iff.mp hnone
    omega
  | baselineCategory hm hnone => exact absurd (.baselineCategory hm hnone) (hpass _ _)
  | baselineFields hp hlt => exact absurd (.baselineFields hp hlt) (hpass _ _)
  | baselineValue hp hv => exact absurd (.baselineValue hp hv) (hpass _ _)
  | comparisonFields hp hlt => exact absurd (.comparisonFields hp hlt) (hpass _ _)
  | comparisonValue hp hv => exact absurd (.comparisonValue hp hv) (hpass _ _)
  | nonzeroBaseline hp hc hx hy hz hne =>
    exact absurd (.nonzeroBaseline hp hc hx hy hz hne) (hpass _ _)

end RowPair

variable {marker aggregate : String} {baseline comparison : List String}

theorem compare_of_compare_strict {r : Report}
    (h : compare { marker, aggregate, strict := true } baseline comparison = .ok r) :
    compare { marker, aggregate, strict := false } baseline comparison = .ok r := by
  obtain ⟨hlen, hall, rfl⟩ := compare_eq_ok_iff.mp h
  refine compare_eq_ok_iff.mpr ⟨hlen, fun p hp => ?_, ?_⟩
  · exact (RowPair.acceptable_strict_iff.mp (hall p hp)).1
  · rw [List.filterMap_congr fun p hp => RowPair.yield?_strict (hall p hp)]

/-- An entry of a report is aligned if the pair at its line is. -/
theorem alignedAt_iff {p : RowPair} (hp : p ∈ pairs baseline comparison) {e : Entry}
    (he : p.Describes e) :
    AlignedAt marker baseline comparison e.line ↔ p.Aligned marker := by
  obtain ⟨i, hi⟩ := List.mem_iff_getElem?.mp hp
  have hline : e.line - 1 = i := by
    rw [he.line, (getElem?_pairs_eq_some_iff.mp hi).1, Nat.add_sub_cancel]
  rw [AlignedAt, hline]
  constructor
  · rintro ⟨q, hq, ha⟩
    rw [hi] at hq
    cases hq
    exact ha
  · intro ha
    exact ⟨p, hi, ha⟩

/-- A pair that passes without strict mode passes with it if its entry, should it have one, is
aligned. -/
theorem acceptable_strict_of_yield? {p : RowPair} (hp : p ∈ pairs baseline comparison)
    (h : p.Acceptable { marker, aggregate, strict := false })
    (ha : ∀ e, p.yield? { marker, aggregate, strict := false } = some e →
      AlignedAt marker baseline comparison e.line) :
    p.Acceptable { marker, aggregate, strict := true } := by
  refine RowPair.acceptable_strict_iff.mpr ⟨h, fun hc => ?_⟩
  obtain ⟨e, he, hd⟩ := (RowPair.yield?_of_acceptable h).1 hc
  exact (alignedAt_iff hp hd).mp (ha e he)

theorem alignedAt_of_acceptable_strict {p : RowPair} (hp : p ∈ pairs baseline comparison)
    (h : p.Acceptable { marker, aggregate, strict := true }) {e : Entry}
    (he : p.yield? { marker, aggregate, strict := false } = some e) :
    AlignedAt marker baseline comparison e.line := by
  obtain ⟨hl, ha⟩ := RowPair.acceptable_strict_iff.mp h
  by_cases hc : p.Compared { marker, aggregate }
  · obtain ⟨f, hf, hd⟩ := (RowPair.yield?_of_acceptable hl).1 hc
    rw [hf] at he
    cases he
    exact (alignedAt_iff hp hd).mpr (ha hc)
  · rw [(RowPair.yield?_of_acceptable hl).2 hc] at he
    cases he

/-- A report made without strict mode stands in strict mode if all its entries are aligned. -/
theorem compare_strict_eq_ok_iff {r : Report}
    (h : compare { marker, aggregate, strict := false } baseline comparison = .ok r) :
    compare { marker, aggregate, strict := true } baseline comparison = .ok r ↔
      ∀ e ∈ r.entries, AlignedAt marker baseline comparison e.line := by
  obtain ⟨hlen, hall, rfl⟩ := compare_eq_ok_iff.mp h
  constructor
  · intro hs e he
    obtain ⟨-, hstrict, -⟩ := compare_eq_ok_iff.mp hs
    obtain ⟨p, hp, hentry⟩ := List.mem_filterMap.mp he
    exact alignedAt_of_acceptable_strict hp (hstrict p hp) hentry
  · intro ha
    have hstrict : ∀ p ∈ pairs baseline comparison,
        p.Acceptable { marker, aggregate, strict := true } := by
      intro p hp
      refine acceptable_strict_of_yield? hp (hall p hp) fun e he => ha e ?_
      exact List.mem_filterMap.mpr ⟨p, hp, he⟩
    refine compare_eq_ok_iff.mpr ⟨hlen, hstrict, ?_⟩
    rw [List.filterMap_congr fun p hp => RowPair.yield?_strict (hstrict p hp)]

/-- A report that strict mode refuses is refused at its first misaligned entry. -/
theorem compare_strict_eq_misaligned {r : Report}
    (h : compare { marker, aggregate, strict := false } baseline comparison = .ok r)
    (hs : ¬ ∀ e ∈ r.entries, AlignedAt marker baseline comparison e.line) :
    ∃ before e after fault, r.entries = before ++ e :: after ∧
      (∀ f ∈ before, AlignedAt marker baseline comparison f.line) ∧
      ¬ AlignedAt marker baseline comparison e.line ∧
      compare { marker, aggregate, strict := true } baseline comparison =
        .error (.misaligned e.line fault) := by
  obtain ⟨hlen, hall, rfl⟩ := compare_eq_ok_iff.mp h
  cases hstrict : compare { marker, aggregate, strict := true } baseline comparison with
  | ok r =>
    have hr := compare_of_compare_strict hstrict
    rw [h] at hr
    cases hr
    exact absurd ((compare_strict_eq_ok_iff h).mp hstrict) hs
  | error error =>
    obtain ⟨before, p, after, hsplit, hbefore, hp⟩ := (compare_eq_error_iff hlen).mp hstrict
    have hmem : p ∈ pairs baseline comparison := by
      rw [hsplit]
      exact List.mem_append_right _ (List.mem_cons_self ..)
    have hna := RowPair.not_acceptable_of_outcome hp
    have hc : p.Compared { marker, aggregate } := by
      refine Decidable.byContradiction fun hc => hna ?_
      exact RowPair.acceptable_strict_iff.mpr ⟨hall p hmem, fun h => absurd h hc⟩
    obtain ⟨e, he, hd⟩ := (RowPair.yield?_of_acceptable (hall p hmem)).1 hc
    obtain ⟨fault, rfl⟩ := RowPair.misaligned_of_outcome_strict (hall p hmem) hp
    refine ⟨before.filterMap (·.yield? { marker, aggregate }), e,
      after.filterMap (·.yield? { marker, aggregate }), fault, ?_, fun f hf => ?_,
      fun ha => hna ?_, ?_⟩
    · show (pairs baseline comparison).filterMap _ = _
      rw [hsplit, List.filterMap_append, List.filterMap_cons_some he]
    · obtain ⟨q, hq, hf⟩ := List.mem_filterMap.mp hf
      refine alignedAt_of_acceptable_strict ?_ (hbefore q hq) hf
      rw [hsplit]
      exact List.mem_append_left _ hq
    · refine acceptable_strict_of_yield? hmem (hall p hmem) fun f hf => ?_
      rw [he] at hf
      cases hf
      exact ha
    · rw [hd.line]

/-- An error without strict mode leaves strict mode no way past its line. -/
theorem compare_strict_error_of_error {e : Error} {k : Nat}
    (h : compare { marker, aggregate, strict := false } baseline comparison = .error e)
    (hk : e.line? = some k) :
    ∃ f l, compare { marker, aggregate, strict := true } baseline comparison = .error f ∧
      f.line? = some l ∧ l ≤ k := by
  obtain ⟨hlen, p, hp, rfl, hout⟩ := exists_outcome_of_compare h hk
  refine compare_error_of_not_acceptable hlen hp fun ha => ?_
  exact RowPair.not_acceptable_of_outcome hout (RowPair.acceptable_strict_iff.mp ha).1

theorem compare_eq_lengthsDiffer_iff (o : Options) (n m : Nat) :
    compare o baseline comparison = .error (.lengthsDiffer n m) ↔
      baseline.length ≠ comparison.length ∧ n = baseline.length ∧ m = comparison.length := by
  by_cases hlen : baseline.length = comparison.length
  · refine iff_of_false (fun h => ?_) fun h => h.1 hlen
    obtain ⟨_, _, _, -, -, hp⟩ := (compare_eq_error_iff hlen).mp h
    have hline := RowPair.line?_of_outcome hp
    cases hline
  · rw [compare_of_length_ne hlen]
    constructor
    · intro h
      cases h
      exact ⟨hlen, rfl, rfl⟩
    · rintro ⟨-, rfl, rfl⟩
      rfl

/-- Strict mode only ever rejects: its reports are those of the trusting mode, it refuses a
report of the trusting mode exactly for a misaligned entry, and it is never later to fail. -/
theorem strict_only_rejects (marker aggregate : String) (baseline comparison : List String) :
    (∀ r, compare { marker, aggregate, strict := true } baseline comparison = .ok r →
        compare { marker, aggregate, strict := false } baseline comparison = .ok r) ∧
    (∀ r, compare { marker, aggregate, strict := false } baseline comparison = .ok r →
        (compare { marker, aggregate, strict := true } baseline comparison = .ok r ↔
          ∀ e ∈ r.entries, AlignedAt marker baseline comparison e.line) ∧
        ((¬ ∀ e ∈ r.entries, AlignedAt marker baseline comparison e.line) →
          ∃ before e after fault, r.entries = before ++ e :: after ∧
            (∀ f ∈ before, AlignedAt marker baseline comparison f.line) ∧
            ¬ AlignedAt marker baseline comparison e.line ∧
            compare { marker, aggregate, strict := true } baseline comparison =
              .error (.misaligned e.line fault))) ∧
    (∀ e k, compare { marker, aggregate, strict := false } baseline comparison = .error e →
        e.line? = some k →
        ∃ f l, compare { marker, aggregate, strict := true } baseline comparison = .error f ∧
          f.line? = some l ∧ l ≤ k) ∧
    ∀ n m, compare { marker, aggregate, strict := true } baseline comparison =
          .error (.lengthsDiffer n m) ↔
        compare { marker, aggregate, strict := false } baseline comparison =
          .error (.lengthsDiffer n m) := by
  refine ⟨fun r => compare_of_compare_strict, fun r hr => ⟨compare_strict_eq_ok_iff hr,
    compare_strict_eq_misaligned hr⟩, fun e k => compare_strict_error_of_error, fun n m => ?_⟩
  rw [compare_eq_lengthsDiffer_iff, compare_eq_lengthsDiffer_iff]

/-- Of two rows that the trusting mode compares, strict mode refuses the one that has changed its
category. -/
theorem strict_only_rejects_second_row :
    let baseline := ["map\tq1\t0.5", "map\tq2\t1"]
    let comparison := ["map_all\tq1\t0.25", "map\tq9\t1"]
    ∃ r, compare { strict := false } baseline comparison = .ok r ∧
      ∃ e ∈ r.entries, ¬ AlignedAt "map" baseline comparison e.line ∧
        compare { strict := true } baseline comparison =
          .error (.misaligned e.line (.otherCategory "q2" "q9")) := by
  intro baseline comparison
  obtain ⟨-, hreport, -⟩ := strict_only_rejects "map" "all" baseline comparison
  have hok : (compare { strict := false } baseline comparison).isOk = true := by decide +kernel
  have herror : compare { strict := true } baseline comparison =
      .error (.misaligned 2 (.otherCategory "q2" "q9")) := by decide +kernel
  obtain ⟨r, hr⟩ := exists_ok_of_isOk hok
  obtain ⟨hiff, hfirst⟩ := hreport r hr
  have hs : ¬ ∀ e ∈ r.entries, AlignedAt "map" baseline comparison e.line := by
    intro ha
    have := hiff.mpr ha
    rw [herror] at this
    cases this
  obtain ⟨before, e, after, fault, hentries, -, hne, he⟩ := hfirst hs
  rw [herror, Except.error.injEq, Error.misaligned.injEq] at he
  refine ⟨r, hr, e, ?_, hne, ?_⟩
  · rw [hentries]
    exact List.mem_append_right _ (List.mem_cons_self ..)
  · rw [herror, he.1]

end Comparison
end EvalDiff
