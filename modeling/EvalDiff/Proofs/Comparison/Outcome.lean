import EvalDiff.Proofs.Comparison.Row

/-!
# The outcome of a pair of rows

The statement this file exists for is `outcome_spec`: a pair is passed over, or yields the entry
that describes it, or is refused with the error of the first check that it fails.  Everything
that is said about whole logs rests on it and on its consequences at the end.
-/

namespace EvalDiff
namespace Comparison

open Log Report

namespace RowPair

variable {o : Options} {p : RowPair}

/-! ### Values -/

/-- A row has too few fields, or no number at the end, or yields its record. -/
theorem recordAt_spec (line : Nat) (row : String) :
    (fields row).length < 3 ∧
        recordAt line row = .error (.badRow line (.tooFewFields (fields row).length)) ∨
      3 ≤ (fields row).length ∧
        ((∃ fault, Binary64.ofToken (valueToken row) = .error fault ∧
            recordAt line row = .error (.badRow line (.invalidValue (valueToken row) fault))) ∨
          ∃ category x, (fields row)[1]? = some category ∧
            Binary64.ofToken (valueToken row) = .ok x ∧
            recordAt line row = .ok { category, value := x }) := by
  by_cases h : (fields row).length < 3
  · refine Or.inl ⟨h, ?_⟩
    rw [recordAt, Record.ofLine_of_lt h]
    rfl
  have hge : 3 ≤ (fields row).length := by omega
  have hc : (fields row)[1]? = some (fields row)[1] := List.getElem?_eq_getElem (by omega)
  refine Or.inr ⟨hge, ?_⟩
  rw [recordAt, Record.ofLine_of_ge hge hc]
  cases hv : Binary64.ofToken (valueToken row) with
  | error fault => exact Or.inl ⟨fault, rfl, rfl⟩
  | ok x => exact Or.inr ⟨_, x, hc, rfl, rfl⟩

/-- Values that differ in either direction are not unchanged. -/
theorem ofValues_eq_unchanged_iff (x y : Binary64) :
    Verdict.ofValues x y = .unchanged ↔ ¬ (y.lt x = true ∨ x.lt y = true) := by
  unfold Verdict.ofValues
  split
  · rename_i h
    simp [h]
  · split
    · rename_i h
      simp [h]
    · rename_i h h'
      simp [h, h']

theorem entryOfValues_of_defined {line : Nat} {category : String} {x y : Binary64}
    (h : ¬ (x.isZero = true ∧ (y.lt x = true ∨ x.lt y = true))) :
    entryOfValues line category x y =
      .ok {
        line, category, baseline := x, comparison := y
        delta := if Verdict.ofValues x y = .unchanged then .zero else y / x - .one
        verdict := Verdict.ofValues x y } := by
  simp only [entryOfValues]
  by_cases hv : Verdict.ofValues x y = .unchanged
  · rw [if_pos hv, if_pos hv]
  · have hz : ¬ x.isZero = true := by
      intro hz
      rw [ofValues_eq_unchanged_iff, Classical.not_not] at hv
      exact h ⟨hz, hv⟩
    rw [if_neg hv, if_neg hz, if_neg hv]

theorem entryOfValues_of_zero {line : Nat} {category : String} {x y : Binary64}
    (hz : x.isZero = true) (h : y.lt x = true ∨ x.lt y = true) :
    entryOfValues line category x y = .error (.zeroBaseline line category) := by
  have hv : Verdict.ofValues x y ≠ .unchanged := by
    intro hv
    exact (ofValues_eq_unchanged_iff x y).mp hv h
  simp only [entryOfValues]
  rw [if_neg hv, if_pos hz]

/-! ### Checks that are passed -/

theorem not_fails_baselineCategory {category : String}
    (h : (fields p.baseline)[1]? = some category) (f : Error) :
    ¬ Fails o p .baselineCategory f := by
  intro hf
  cases hf with
  | baselineCategory _ hnone =>
    rw [h] at hnone
    cases hnone

theorem not_fails_comparisonMarker (h : o.strict = true → Marked o.marker p.comparison)
    (f : Error) : ¬ Fails o p .comparisonMarker f := by
  intro hf
  cases hf with
  | comparisonMarker _ hs hm => exact hm (h hs)

theorem not_fails_comparisonCategory {found : String}
    (h : o.strict = true → (fields p.comparison)[1]? = some found) (f : Error) :
    ¬ Fails o p .comparisonCategory f := by
  intro hf
  cases hf with
  | comparisonCategory _ hs hnone =>
    rw [h hs] at hnone
    cases hnone

theorem not_fails_sameCategory
    (h : o.strict = true → (fields p.comparison)[1]? = (fields p.baseline)[1]?) (f : Error) :
    ¬ Fails o p .sameCategory f := by
  intro hf
  cases hf with
  | sameCategory _ hs hc hd hne =>
    rw [h hs, hc] at hd
    cases hd
    exact hne rfl

theorem not_fails_baselineFields (h : 3 ≤ (fields p.baseline).length) (f : Error) :
    ¬ Fails o p .baselineFields f := by
  intro hf
  cases hf with
  | baselineFields _ hlt => omega

theorem not_fails_baselineValue {x : Binary64}
    (h : Binary64.ofToken (valueToken p.baseline) = .ok x) (f : Error) :
    ¬ Fails o p .baselineValue f := by
  intro hf
  cases hf with
  | baselineValue _ hv =>
    rw [h] at hv
    cases hv

theorem not_fails_comparisonFields (h : 3 ≤ (fields p.comparison).length) (f : Error) :
    ¬ Fails o p .comparisonFields f := by
  intro hf
  cases hf with
  | comparisonFields _ hlt => omega

theorem not_fails_comparisonValue {y : Binary64}
    (h : Binary64.ofToken (valueToken p.comparison) = .ok y) (f : Error) :
    ¬ Fails o p .comparisonValue f := by
  intro hf
  cases hf with
  | comparisonValue _ hv =>
    rw [h] at hv
    cases hv

theorem not_fails_nonzeroBaseline {x y : Binary64} (h : p.HasValues x y) (f : Error) :
    ¬ Fails o p .nonzeroBaseline f := by
  intro hf
  cases hf with
  | nonzeroBaseline _ _ hx hy hz hne =>
    rw [h.baseline] at hx
    rw [h.comparison] at hy
    cases hx
    cases hy
    exact h.defined ⟨hz, hne⟩

/-- Without strict mode, and for aligned rows, the checks of strict mode are passed. -/
theorem firstFailure_of_aligned {rest : List Check} {e : Error} (hp : p.Compared o)
    (h : o.strict = true → p.Aligned o.marker) (hrest : FirstFailure o p rest e) :
    FirstFailure o p (.comparisonMarker :: .comparisonCategory :: .sameCategory :: rest) e := by
  obtain ⟨-, category, hc, -⟩ := hp
  have hfound : o.strict = true → (fields p.comparison)[1]? = some category :=
    fun hs => (h hs).2.trans hc
  exact .later (not_fails_comparisonMarker fun hs => (h hs).1)
    (.later (not_fails_comparisonCategory hfound)
      (.later (not_fails_sameCategory fun hs => (h hs).2) hrest))

/-! ### The stages of a comparison -/

/-- The checks of strict mode. -/
theorem checkAligned_spec {category : String} (hp : p.Compared o) (hs : o.strict = true)
    (hc : (fields p.baseline)[1]? = some category) :
    (checkAligned o p.line category p.comparison = .ok () ∧ p.Aligned o.marker) ∨
    ∃ e, checkAligned o p.line category p.comparison = .error e ∧
      ∀ rest, FirstFailure o p
        (.comparisonMarker :: .comparisonCategory :: .sameCategory :: rest) e := by
  unfold checkAligned categoryAt
  rw [category?_eq]
  by_cases hm : Marked o.marker p.comparison
  · rw [if_pos ((isMarked_iff _ _).mpr hm)]
    have hmarker := not_fails_comparisonMarker (o := o) fun _ => hm
    cases hd : (fields p.comparison)[1]? with
    | none => exact Or.inr ⟨_, rfl, fun _ => .later hmarker (.here (.comparisonCategory hp hs hd))⟩
    | some found =>
      have hcategory := not_fails_comparisonCategory (o := o) fun _ => hd
      by_cases he : found = category
      · refine Or.inl ⟨if_pos he, hm, ?_⟩
        rw [hd, hc, he]
      · exact Or.inr ⟨_, if_neg he, fun _ => .later hmarker (.later hcategory
          (.here (.sameCategory hp hs hc hd he)))⟩
  · rw [if_neg fun h => hm ((isMarked_iff _ _).mp h)]
    exact Or.inr ⟨_, rfl, fun _ => .here (.comparisonMarker hp hs hm)⟩

/-- The values of a pair, with the checks that guard them. -/
theorem compareRecords_spec (hp : p.Compared o) :
    (∃ e, compareRecords p.line p.baseline p.comparison = .ok e ∧
      3 ≤ (fields p.baseline).length ∧ 3 ≤ (fields p.comparison).length ∧
      (∃ x y, p.HasValues x y) ∧ p.Describes e) ∨
    ∃ e, compareRecords p.line p.baseline p.comparison = .error e ∧
      FirstFailure o p [.baselineFields, .baselineValue, .comparisonFields, .comparisonValue,
        .nonzeroBaseline] e := by
  unfold compareRecords
  rcases recordAt_spec p.line p.baseline with
    ⟨hb, hr⟩ | ⟨hb, ⟨fault, hx, hr⟩ | ⟨category, x, hc, hx, hr⟩⟩
  · rw [hr]
    exact Or.inr ⟨_, rfl, .here (.baselineFields hp hb)⟩
  · rw [hr]
    exact Or.inr ⟨_, rfl, .later (not_fails_baselineFields hb) (.here (.baselineValue hp hx))⟩
  rw [hr]
  rcases recordAt_spec p.line p.comparison with
    ⟨hn, hr⟩ | ⟨hn, ⟨fault, hy, hr⟩ | ⟨_, y, -, hy, hr⟩⟩
  · rw [hr]
    exact Or.inr ⟨_, rfl, .later (not_fails_baselineFields hb)
      (.later (not_fails_baselineValue hx) (.here (.comparisonFields hp hn)))⟩
  · rw [hr]
    exact Or.inr ⟨_, rfl, .later (not_fails_baselineFields hb)
      (.later (not_fails_baselineValue hx) (.later (not_fails_comparisonFields hn)
        (.here (.comparisonValue hp hy))))⟩
  rw [hr]
  show (∃ e, entryOfValues p.line category x y = .ok e ∧ _) ∨
    ∃ e, entryOfValues p.line category x y = .error e ∧ _
  by_cases hz : x.isZero = true ∧ (y.lt x = true ∨ x.lt y = true)
  · exact Or.inr ⟨_, entryOfValues_of_zero hz.1 hz.2, .later (not_fails_baselineFields hb)
      (.later (not_fails_baselineValue hx) (.later (not_fails_comparisonFields hn)
        (.later (not_fails_comparisonValue hy)
          (.here (.nonzeroBaseline hp hc hx hy hz.1 hz.2)))))⟩
  · exact Or.inl ⟨_, entryOfValues_of_defined hz, hb, hn, ⟨x, y, hx, hy, hz⟩,
      ⟨rfl, hc, hx, hy, rfl, rfl⟩⟩

theorem outcome_of_not_compared (hm : Marked o.marker p.baseline) {category : String}
    (hc : (fields p.baseline)[1]? = some category) (h : category = o.aggregate) :
    p.outcome o = .ok none := by
  rw [outcome, compareLine, if_pos ((isMarked_iff _ _).mpr hm), categoryAt, category?_eq, hc]
  exact if_pos h

theorem outcome_of_compared (hp : p.Compared o) {category : String}
    (hc : (fields p.baseline)[1]? = some category) :
    p.outcome o =
      if o.strict = true then do
        checkAligned o p.line category p.comparison
        some <$> compareRecords p.line p.baseline p.comparison
      else some <$> compareRecords p.line p.baseline p.comparison := by
  obtain ⟨hm, _, hc', hne⟩ := hp
  rw [hc] at hc'
  cases hc'
  rw [outcome, compareLine, if_pos ((isMarked_iff _ _).mpr hm), categoryAt, category?_eq, hc]
  exact if_neg hne

/-- A pair is passed over, or yields the entry that describes it, or is refused with the error
of the first check that it fails. -/
theorem outcome_spec (o : Options) (p : RowPair) :
    (p.outcome o = .ok none ∧ ¬ p.Compared o ∧ p.Acceptable o) ∨
    (∃ e, p.outcome o = .ok (some e) ∧ p.Compared o ∧ p.Acceptable o ∧ p.Describes e) ∨
    ∃ e, p.outcome o = .error e ∧ FirstFailure o p Check.order e := by
  by_cases hm : Marked o.marker p.baseline
  · cases hc : (fields p.baseline)[1]? with
    | none =>
      refine Or.inr (Or.inr ⟨_, ?_, .here (.baselineCategory hm hc)⟩)
      rw [outcome, compareLine, if_pos ((isMarked_iff _ _).mpr hm), categoryAt, category?_eq, hc]
      rfl
    | some category =>
      by_cases hne : category = o.aggregate
      · refine Or.inl ⟨outcome_of_not_compared hm hc hne, ?_, fun _ => ⟨_, hc, absurd hne⟩⟩
        rintro ⟨-, _, hc', hne'⟩
        rw [hc] at hc'
        cases hc'
        exact hne' hne
      have hp : p.Compared o := ⟨hm, category, hc, hne⟩
      have hcategory := not_fails_baselineCategory (o := o) hc
      rw [outcome_of_compared hp hc]
      -- The values are looked at only once the rows are known to be aligned.
      have hvalues : (o.strict = true → p.Aligned o.marker) →
          (∃ e, some <$> compareRecords p.line p.baseline p.comparison = .ok (some e) ∧
            p.Compared o ∧ p.Acceptable o ∧ p.Describes e) ∨
          ∃ e, some <$> compareRecords p.line p.baseline p.comparison = .error e ∧
            FirstFailure o p Check.order e := by
        intro ha
        rcases compareRecords_spec hp with ⟨e, he, hb, hn, hv, hd⟩ | ⟨e, he, hf⟩
        · rw [he]
          exact Or.inl ⟨e, rfl, hp, fun _ => ⟨category, hc, fun _ => ⟨ha, hb, hn, hv⟩⟩, hd⟩
        · rw [he]
          exact Or.inr ⟨e, rfl, .later hcategory (firstFailure_of_aligned hp ha hf)⟩
      by_cases hs : o.strict = true
      · rw [if_pos hs]
        rcases checkAligned_spec hp hs hc with ⟨hok, ha⟩ | ⟨e, he, hf⟩
        · rw [hok]
          exact Or.inr (hvalues fun _ => ha)
        · rw [he]
          exact Or.inr (Or.inr ⟨e, rfl, .later hcategory (hf _)⟩)
      · rw [if_neg hs]
        exact Or.inr (hvalues fun h => absurd h hs)
  · refine Or.inl ⟨?_, fun hp => hm hp.1, fun h => absurd h hm⟩
    rw [outcome, compareLine, if_neg fun h => hm ((isMarked_iff _ _).mp h)]
    rfl

/-! ### Consequences -/

theorem exists_fails_of_firstFailure {checks : List Check} {e : Error}
    (h : FirstFailure o p checks e) : ∃ check, Fails o p check e := by
  induction h with
  | here h => exact ⟨_, h⟩
  | later _ _ ih => exact ih

/-- Every error names the line that it is about. -/
theorem line?_of_fails {check : Check} {e : Error} (h : Fails o p check e) :
    e.line? = some p.line := by
  cases h <;> rfl

theorem comparable_of_acceptable (h : p.Acceptable o) (hp : p.Compared o) : p.Comparable o := by
  obtain ⟨hm, category, hc, hne⟩ := hp
  obtain ⟨found, hf, hcomparable⟩ := h hm
  rw [hc] at hf
  cases hf
  exact hcomparable hne

theorem not_fails_of_acceptable (h : p.Acceptable o) (check : Check) (e : Error) :
    ¬ Fails o p check e := by
  intro hf
  cases hf with
  | baselineCategory hm hnone =>
    obtain ⟨_, hc, -⟩ := h hm
    exact not_fails_baselineCategory hc _ (.baselineCategory hm hnone)
  | comparisonMarker hp hs hm =>
    have ha := (comparable_of_acceptable h hp).aligned
    exact not_fails_comparisonMarker (fun hs => (ha hs).1) _ (.comparisonMarker hp hs hm)
  | comparisonCategory hp hs hnone =>
    have ha := (comparable_of_acceptable h hp).aligned
    obtain ⟨_, _, hc, _⟩ := id hp
    exact not_fails_comparisonCategory (fun hs => (ha hs).2.trans hc) _
      (.comparisonCategory hp hs hnone)
  | sameCategory hp hs hc hd hne =>
    have ha := (comparable_of_acceptable h hp).aligned
    exact not_fails_sameCategory (fun hs => (ha hs).2) _ (.sameCategory hp hs hc hd hne)
  | baselineFields hp hlt =>
    have hfields := (comparable_of_acceptable h hp).baseline_fields
    exact not_fails_baselineFields hfields _ (.baselineFields hp hlt)
  | baselineValue hp hv =>
    obtain ⟨_, _, hvalues⟩ := (comparable_of_acceptable h hp).values
    exact not_fails_baselineValue hvalues.baseline _ (.baselineValue hp hv)
  | comparisonFields hp hlt =>
    have hfields := (comparable_of_acceptable h hp).comparison_fields
    exact not_fails_comparisonFields hfields _ (.comparisonFields hp hlt)
  | comparisonValue hp hv =>
    obtain ⟨_, _, hvalues⟩ := (comparable_of_acceptable h hp).values
    exact not_fails_comparisonValue hvalues.comparison _ (.comparisonValue hp hv)
  | nonzeroBaseline hp hc hx hy hz hne =>
    obtain ⟨_, _, hvalues⟩ := (comparable_of_acceptable h hp).values
    exact not_fails_nonzeroBaseline hvalues _ (.nonzeroBaseline hp hc hx hy hz hne)

/-- The pairs that stop no comparison are the acceptable ones. -/
theorem exists_outcome_eq_ok_iff (o : Options) (p : RowPair) :
    (∃ found, p.outcome o = .ok found) ↔ p.Acceptable o := by
  rcases outcome_spec o p with ⟨hout, -, ha⟩ | ⟨e, hout, -, ha, -⟩ | ⟨e, hout, hf⟩
  · exact iff_of_true ⟨_, hout⟩ ha
  · exact iff_of_true ⟨_, hout⟩ ha
  · obtain ⟨check, hf⟩ := exists_fails_of_firstFailure hf
    refine iff_of_false ?_ fun ha => not_fails_of_acceptable ha check e hf
    rintro ⟨_, hok⟩
    rw [hout] at hok
    cases hok

theorem not_acceptable_of_outcome {e : Error} (h : p.outcome o = .error e) :
    ¬ p.Acceptable o := by
  intro ha
  obtain ⟨found, hfound⟩ := (exists_outcome_eq_ok_iff o p).mpr ha
  rw [h] at hfound
  cases hfound

theorem firstFailure_of_outcome {e : Error} (h : p.outcome o = .error e) :
    FirstFailure o p Check.order e := by
  rcases outcome_spec o p with ⟨hout, -⟩ | ⟨_, hout, -⟩ | ⟨_, hout, hf⟩
  · rw [hout] at h
    cases h
  · rw [hout] at h
    cases h
  · rw [hout] at h
    cases h
    exact hf

theorem line?_of_outcome {e : Error} (h : p.outcome o = .error e) : e.line? = some p.line := by
  obtain ⟨_, hf⟩ := exists_fails_of_firstFailure (firstFailure_of_outcome h)
  exact line?_of_fails hf

theorem describes_of_outcome {e : Entry} (h : p.outcome o = .ok (some e)) :
    p.Compared o ∧ p.Describes e := by
  rcases outcome_spec o p with ⟨hout, -⟩ | ⟨_, hout, hp, -, hd⟩ | ⟨_, hout, -⟩
  · rw [hout] at h
    cases h
  · rw [hout] at h
    cases h
    exact ⟨hp, hd⟩
  · rw [hout] at h
    cases h

theorem not_compared_of_outcome (h : p.outcome o = .ok none) : ¬ p.Compared o := by
  rcases outcome_spec o p with ⟨-, hp, -⟩ | ⟨_, hout, -⟩ | ⟨_, hout, -⟩
  · exact hp
  · rw [hout] at h
    cases h
  · rw [hout] at h
    cases h

end RowPair
end Comparison
end EvalDiff
