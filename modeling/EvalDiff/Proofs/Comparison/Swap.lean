import EvalDiff.Proofs.Comparison.Summary
import EvalDiff.Proofs.Verdict

/-!
# Swapping the logs

Which rows are compared depends on the baseline alone, and so does the guard against zeros.  Where
both sides select the same rows, and neither direction fails, a comparison of the swapped logs has
the same entries with the values exchanged and the verdicts turned around.
-/

namespace EvalDiff

/-- The verdict on the same values in the other order. -/
def Verdict.swap : Verdict → Verdict
  | .better => .worse
  | .worse => .better
  | .unchanged => .unchanged

theorem Verdict.ofValues_swap (x y : Binary64) : ofValues y x = (ofValues x y).swap := by
  cases h : ofValues x y with
  | better => exact (ofValues_eq_worse_iff y x).mpr ((ofValues_eq_better_iff x y).mp h)
  | worse => exact (ofValues_eq_better_iff y x).mpr ((ofValues_eq_worse_iff x y).mp h)
  | unchanged =>
    cases h' : ofValues y x with
    | better =>
      rw [(ofValues_eq_worse_iff x y).mpr ((ofValues_eq_better_iff y x).mp h')] at h
      cases h
    | worse =>
      rw [(ofValues_eq_better_iff x y).mpr ((ofValues_eq_worse_iff y x).mp h')] at h
      cases h
    | unchanged => rfl

theorem Verdict.swap_eq_iff (v w : Verdict) : v.swap = w ↔ v = w.swap := by
  cases v <;> cases w <;> decide

namespace Report

open Binary64

/-- An entry for the same row with the values exchanged. -/
structure Entry.Swaps (e f : Entry) : Prop where
  line : f.line = e.line
  category : f.category = e.category
  baseline : f.baseline = e.comparison
  comparison : f.comparison = e.baseline
  verdict : f.verdict = e.verdict.swap

theorem countP_of_swaps {es fs : List Entry} (h : List.Forall₂ Entry.Swaps es fs) (v : Verdict) :
    fs.countP (·.verdict == v) = es.countP (·.verdict == v.swap) := by
  induction h with
  | nil => rfl
  | cons hef _ ih =>
    rw [List.countP_cons, List.countP_cons, ih]
    simp only [beq_iff_eq, hef.verdict, Verdict.swap_eq_iff]

end Report

namespace Comparison

open Binary64 Log Report

/-- A row that is passed over on the baseline side. -/
def Skipped (o : Options) (row : String) : Prop :=
  ¬ Marked o.marker row ∨ (fields row)[1]? = some o.aggregate

namespace RowPair

variable {o : Options} {p : RowPair}

/-- The pair at the same line of the swapped logs. -/
def swap (p : RowPair) : RowPair :=
  { line := p.line, baseline := p.comparison, comparison := p.baseline }

/-- Both rows are passed over, or both are metric rows of one category. -/
def Mirrored (o : Options) (p : RowPair) : Prop :=
  Skipped o p.baseline ∧ Skipped o p.comparison ∨
    Marked o.marker p.baseline ∧ p.Aligned o.marker

theorem not_compared_of_skipped (h : Skipped o p.baseline) : ¬ p.Compared o := by
  rintro ⟨hm, category, hc, hne⟩
  rcases h with h | h
  · exact h hm
  · rw [h] at hc
    cases hc
    exact hne rfl

theorem skipped_of_not_compared (ha : p.Acceptable o) (h : ¬ p.Compared o) :
    Skipped o p.baseline := by
  refine (Decidable.em (Marked o.marker p.baseline)).symm.imp_right fun hm => ?_
  obtain ⟨category, hc, -⟩ := ha hm
  have hsame : category = o.aggregate :=
    Decidable.byContradiction fun hne => h ⟨hm, category, hc, hne⟩
  rw [hc, hsame]

theorem Mirrored.compared_iff (h : p.Mirrored o) : p.swap.Compared o ↔ p.Compared o := by
  rcases h with ⟨hb, hc⟩ | ⟨hm, hm', hc⟩
  · exact iff_of_false (not_compared_of_skipped hc) (not_compared_of_skipped hb)
  · constructor
    · rintro ⟨-, category, hcategory, hne⟩
      exact ⟨hm, category, hc ▸ hcategory, hne⟩
    · rintro ⟨-, category, hcategory, hne⟩
      exact ⟨hm', category, hc.symm ▸ hcategory, hne⟩

theorem mirrored_of_strict (hs : o.strict = true) (ha : p.Acceptable o)
    (ha' : p.swap.Acceptable o) : p.Mirrored o := by
  by_cases hp : p.Compared o
  · exact Or.inr ⟨hp.1, (comparable_of_acceptable ha hp).aligned hs⟩
  · by_cases hp' : p.swap.Compared o
    · obtain ⟨hm, hc⟩ := (comparable_of_acceptable ha' hp').aligned hs
      exact Or.inr ⟨hm, hp'.1, hc.symm⟩
    · exact Or.inl ⟨skipped_of_not_compared ha hp, skipped_of_not_compared (p := p.swap) ha' hp'⟩

/-- What stands in the pair and what stands in the swapped one. -/
theorem Describes.swaps {e f : Entry} (hc : (fields p.comparison)[1]? = (fields p.baseline)[1]?)
    (he : p.Describes e) (hf : p.swap.Describes f) : e.Swaps f := by
  have hbaseline : f.baseline = e.comparison :=
    Except.ok.inj (hf.baseline.symm.trans he.comparison)
  have hcomparison : f.comparison = e.baseline :=
    Except.ok.inj (hf.comparison.symm.trans he.baseline)
  refine ⟨hf.line.trans he.line.symm, ?_, hbaseline, hcomparison, ?_⟩
  · exact Option.some.inj (hf.category.symm.trans (hc.trans he.category))
  · rw [hf.verdict, he.verdict, hbaseline, hcomparison, Verdict.ofValues_swap]

/-- A pair and the swapped one both have an entry, or neither has. -/
theorem Mirrored.yields (h : p.Mirrored o) (ha : p.Acceptable o) (ha' : p.swap.Acceptable o) :
    (p.yield? o = none ∧ p.swap.yield? o = none) ∨
      ∃ e f, p.yield? o = some e ∧ p.swap.yield? o = some f ∧ e.Swaps f := by
  have hy := yield?_of_acceptable ha
  have hy' := yield?_of_acceptable ha'
  by_cases hp : p.Compared o
  · obtain ⟨e, he, hd⟩ := hy.1 hp
    obtain ⟨f, hf, hd'⟩ := hy'.1 (h.compared_iff.mpr hp)
    rcases h with ⟨hb, -⟩ | ⟨-, -, hc⟩
    · exact absurd hp (not_compared_of_skipped hb)
    · exact Or.inr ⟨e, f, he, hf, hd.swaps hc hd'⟩
  · exact Or.inl ⟨hy.2 hp, hy'.2 (mt h.compared_iff.mp hp)⟩

end RowPair

variable {o : Options} {baseline comparison : List String} {r s : Report}

theorem pairs_swap (baseline comparison : List String) :
    pairs comparison baseline = (pairs baseline comparison).map RowPair.swap := by
  refine List.ext_getElem? fun i => Option.ext fun p => ?_
  rw [getElem?_pairs_eq_some_iff, List.getElem?_map, Option.map_eq_some_iff]
  constructor
  · rintro ⟨hline, hb, hc⟩
    exact ⟨p.swap, getElem?_pairs_eq_some_iff.mpr ⟨hline, hc, hb⟩, rfl⟩
  · rintro ⟨q, hq, rfl⟩
    obtain ⟨hline, hb, hc⟩ := getElem?_pairs_eq_some_iff.mp hq
    exact ⟨hline, hc, hb⟩

theorem swaps_entries {ps : List RowPair}
    (h : ∀ p ∈ ps, p.Mirrored o ∧ p.Acceptable o ∧ p.swap.Acceptable o) :
    List.Forall₂ Entry.Swaps (ps.filterMap (·.yield? o))
      ((ps.map RowPair.swap).filterMap (·.yield? o)) := by
  induction ps with
  | nil => exact .nil
  | cons p rest ih =>
    obtain ⟨⟨hm, ha, ha'⟩, hrest⟩ := List.forall_mem_cons.mp h
    rw [List.map_cons]
    rcases hm.yields ha ha' with ⟨hnone, hnone'⟩ | ⟨e, f, he, hf, hef⟩
    · rw [List.filterMap_cons_none hnone, List.filterMap_cons_none hnone']
      exact ih hrest
    · rw [List.filterMap_cons_some he, List.filterMap_cons_some hf]
      exact .cons hef (ih hrest)

theorem mirrored_of_compare (hr : compare o baseline comparison = .ok r)
    (hs : compare o comparison baseline = .ok s) (hstrict : o.strict = true) :
    ∀ p ∈ pairs baseline comparison, p.Mirrored o := by
  obtain ⟨-, hall, -⟩ := compare_eq_ok_iff.mp hr
  obtain ⟨-, hall', -⟩ := compare_eq_ok_iff.mp hs
  rw [pairs_swap baseline comparison, List.forall_mem_map] at hall'
  exact fun p hp => RowPair.mirrored_of_strict hstrict (hall p hp) (hall' p hp)

theorem swaps_of_compare (hr : compare o baseline comparison = .ok r)
    (hs : compare o comparison baseline = .ok s)
    (h : ∀ p ∈ pairs baseline comparison, p.Mirrored o) :
    List.Forall₂ Entry.Swaps r.entries s.entries := by
  obtain ⟨-, hall, rfl⟩ := compare_eq_ok_iff.mp hr
  obtain ⟨-, hall', rfl⟩ := compare_eq_ok_iff.mp hs
  rw [pairs_swap baseline comparison] at hall' ⊢
  rw [List.forall_mem_map] at hall'
  exact swaps_entries fun p hp => ⟨h p hp, hall p hp, hall' p hp⟩

/-- If both directions succeed on rows that mirror each other, as they always do in strict mode,
each report has the entries of the other with the values and the verdicts exchanged.  Each count
of better entries is the other count of worse ones before its floor. -/
theorem swap_exchanges_verdicts (hr : compare o baseline comparison = .ok r)
    (hs : compare o comparison baseline = .ok s) :
    (o.strict = true → ∀ p ∈ pairs baseline comparison, p.Mirrored o) ∧
      ((∀ p ∈ pairs baseline comparison, p.Mirrored o) →
        List.Forall₂ Entry.Swaps r.entries s.entries ∧
          s.count .better = r.count .worse ∧ s.count .worse = r.count .better ∧
          s.summary.unchanged = r.summary.unchanged ∧
          (∃ n, IsNat s.summary.better n ∧ IsNat r.summary.worse (max 1 n)) ∧
          ∃ n, IsNat r.summary.better n ∧ IsNat s.summary.worse (max 1 n)) := by
  refine ⟨mirrored_of_compare hr hs, fun h => ?_⟩
  have hswaps := swaps_of_compare hr hs h
  have hbetter : s.count .better = r.count .worse := countP_of_swaps hswaps .better
  have hworse : s.count .worse = r.count .better := countP_of_swaps hswaps .worse
  have hunchanged : s.count .unchanged = r.count .unchanged := countP_of_swaps hswaps .unchanged
  obtain ⟨hrb, hru, hrw⟩ := counts_of_compare hr
  obtain ⟨hsb, hsu, hsw⟩ := counts_of_compare hs
  rw [hbetter] at hsb
  rw [hworse] at hsw
  rw [hunchanged] at hsu
  exact ⟨hswaps, hbetter, hworse, hsu.unique hru, ⟨_, hsb, hrw⟩, ⟨_, hrb, hsw⟩⟩

/-- One regression among two gains, an aggregate that has no value, and a row of another measure. -/
theorem swap_exchanges_verdicts_five_rows :
    let baseline := ["map\tq1\t0.1", "map\tq2\t0.5", "map\tq3\t-2", "map\tall", "P_10\tq1\t1"]
    let comparison := ["map\tq1\t0.2", "map\tq2\t0.4", "map\tq3\t3", "map\tall\t1", "num_q"]
    ∃ r s, compare {} baseline comparison = .ok r ∧ compare {} comparison baseline = .ok s ∧
      (∀ p ∈ pairs baseline comparison, p.Mirrored {}) ∧
      List.Forall₂ Entry.Swaps r.entries s.entries ∧ s.count .worse = r.count .better := by
  intro baseline comparison
  have hok : (compare {} baseline comparison).isOk = true := by decide +kernel
  have hok' : (compare {} comparison baseline).isOk = true := by decide +kernel
  have hrows : ∀ p ∈ pairs baseline comparison,
      (¬ Marked "map" p.baseline ∨ (fields p.baseline)[1]? = some "all") ∧
          (¬ Marked "map" p.comparison ∨ (fields p.comparison)[1]? = some "all") ∨
        Marked "map" p.baseline ∧ Marked "map" p.comparison ∧
          (fields p.comparison)[1]? = (fields p.baseline)[1]? := by
    decide +kernel
  obtain ⟨r, hr⟩ := exists_ok_of_isOk hok
  obtain ⟨s, hs⟩ := exists_ok_of_isOk hok'
  obtain ⟨hswaps, -, hworse, -⟩ := (swap_exchanges_verdicts hr hs).2 hrows
  exact ⟨r, s, hr, hs, hrows, hswaps, hworse⟩

end Comparison
end EvalDiff
