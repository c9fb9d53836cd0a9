import EvalDiff.Proofs.Comparison.Swap

/-!
# What a comparison does not look at

Of a row that is passed over nothing has any influence, and nothing of the row it is paired with.
Of a row that is compared only its category and its last field count, and of the row it is paired
with only the last field, in strict mode also the first two.  The relation `RowPair.Alike` says that
two pairs of rows agree in what counts, and `alike_rows_same_outcome` that logs of such pairs have
the same report or the same error.
-/

namespace EvalDiff
namespace Comparison

open Log Report

/-- Two rows with a value field, which is the same for both. -/
structure SameValueField (row row' : String) : Prop where
  length : 3 ≤ (fields row).length
  length' : 3 ≤ (fields row').length
  last : (fields row).getLast (fields_ne_nil row) = (fields row').getLast (fields_ne_nil row')

/-- Two comparison rows that agree in what counts. -/
inductive SameComparison (o : Options) (row row' : String) : Prop where
  | same (h : row = row')
  | fields (h : SameValueField row row')
    (hs : o.strict = true →
      (fields row)[0]? = (fields row')[0]? ∧ (fields row)[1]? = (fields row')[1]?)

/-- Two pairs of rows that agree in what counts. -/
inductive RowPair.Alike (o : Options) (p q : RowPair) : Prop where
  | skipped (h : Skipped o p.baseline) (h' : Skipped o q.baseline)
  | compared (hm : Marked o.marker p.baseline) (hm' : Marked o.marker q.baseline)
    (hv : SameValueField p.baseline q.baseline)
    (hcategory : (fields p.baseline)[1]? = (fields q.baseline)[1]?)
    (hc : SameComparison o p.comparison q.comparison)

variable {o : Options} {row row' : String}

theorem SameValueField.valueToken_eq (h : SameValueField row row') :
    valueToken row = valueToken row' := by
  rw [valueToken, valueToken, h.last]

/-- A record is made of the category and the number at the end. -/
theorem recordAt_congr (h : 3 ≤ (fields row).length) (h' : 3 ≤ (fields row').length)
    (hcategory : (fields row)[1]? = (fields row')[1]?) (hvalue : valueToken row = valueToken row')
    (line : Nat) : recordAt line row = recordAt line row' := by
  have hlt : 1 < (fields row).length := Nat.lt_of_lt_of_le (by omega) h
  have hc := List.getElem?_eq_getElem hlt
  rw [recordAt, recordAt, Record.ofLine_of_ge h hc,
    Record.ofLine_of_ge h' (hcategory.symm.trans hc), hvalue]

/-- The value of a row, or what is wrong with the row. -/
def valueAt (line : Nat) (row : String) : Except Error Binary64 := (recordAt line row).map (·.value)

theorem SameValueField.valueAt_eq (h : SameValueField row row') (line : Nat) :
    valueAt line row = valueAt line row' := by
  have hlt : 1 < (fields row).length := Nat.lt_of_lt_of_le (by omega) h.length
  have hlt' : 1 < (fields row').length := Nat.lt_of_lt_of_le (by omega) h.length'
  rw [valueAt, valueAt, recordAt, recordAt,
    Record.ofLine_of_ge h.length (List.getElem?_eq_getElem hlt),
    Record.ofLine_of_ge h.length' (List.getElem?_eq_getElem hlt'), h.valueToken_eq]
  cases Binary64.ofToken (valueToken row') <;> rfl

/-- The category of the comparison row is not used. -/
theorem compareRecords_eq (line : Nat) (baseline comparison : String) :
    compareRecords line baseline comparison =
      recordAt line baseline >>= fun old =>
        valueAt line comparison >>= entryOfValues line old.category old.value := by
  rw [compareRecords, valueAt]
  cases recordAt line comparison <;> rfl

theorem isMarked_eq (marker : String) (h : (fields row)[0]? = (fields row')[0]?) :
    isMarked marker row = isMarked marker row' := by
  have hhead : (fields row).head (fields_ne_nil row) = (fields row').head (fields_ne_nil row') := by
    have hfirst := List.head?_eq_some_head (fields_ne_nil row)
    have hfirst' := List.head?_eq_some_head (fields_ne_nil row')
    rw [← List.head?_eq_getElem?, ← List.head?_eq_getElem?, hfirst, hfirst'] at h
    exact Option.some.inj h
  rw [Bool.eq_iff_iff, isMarked_iff, isMarked_iff, Marked, Marked, hhead]

theorem checkAligned_eq (h : (fields row)[0]? = (fields row')[0]?)
    (hcategory : (fields row)[1]? = (fields row')[1]?) (line : Nat) (category : String) :
    checkAligned o line category row = checkAligned o line category row' := by
  rw [checkAligned, checkAligned, isMarked_eq o.marker h, categoryAt, categoryAt, category?_eq,
    category?_eq, hcategory]

namespace RowPair

variable {p q : RowPair}

theorem outcome_of_skipped (h : Skipped o p.baseline) : p.outcome o = .ok none := by
  by_cases hm : Marked o.marker p.baseline
  · exact outcome_of_not_compared hm (h.resolve_left fun hn => hn hm) rfl
  · rw [outcome, compareLine, if_neg fun h => hm ((isMarked_iff _ _).mp h)]
    rfl

theorem outcome_of_marked (hm : Marked o.marker p.baseline) :
    p.outcome o = (do
      let category ← categoryAt p.line p.baseline
      if category = o.aggregate then return none
      else
        if o.strict then checkAligned o p.line category p.comparison
        return some (← compareRecords p.line p.baseline p.comparison)) := by
  rw [outcome, compareLine, if_pos ((isMarked_iff _ _).mpr hm)]

/-- Two pairs of compared rows come to the same if all that is looked up in them is the same. -/
theorem outcome_congr (hline : p.line = q.line) (hm : Marked o.marker p.baseline)
    (hm' : Marked o.marker q.baseline)
    (hcategory : (Log.fields p.baseline)[1]? = (Log.fields q.baseline)[1]?)
    (hrecord : recordAt q.line p.baseline = recordAt q.line q.baseline)
    (hvalue : valueAt q.line p.comparison = valueAt q.line q.comparison)
    (haligned : o.strict = true → ∀ category,
      checkAligned o q.line category p.comparison = checkAligned o q.line category q.comparison) :
    p.outcome o = q.outcome o := by
  rw [outcome_of_marked hm, outcome_of_marked hm', hline, categoryAt, categoryAt, category?_eq,
    category?_eq, hcategory, compareRecords_eq, compareRecords_eq, hrecord, hvalue]
  by_cases hs : o.strict = true
  · simp only [hs, if_true, haligned hs]
  · simp [hs]

/-- Of two rows with the same category and value each is compared as the other. -/
theorem outcome_eq_of_compared (hline : p.line = q.line) (hm : Marked o.marker p.baseline)
    (hm' : Marked o.marker q.baseline) (hv : SameValueField p.baseline q.baseline)
    (hcategory : (Log.fields p.baseline)[1]? = (Log.fields q.baseline)[1]?)
    (hc : SameComparison o p.comparison q.comparison) : p.outcome o = q.outcome o := by
  have hrecord := recordAt_congr hv.length hv.length' hcategory hv.valueToken_eq q.line
  refine outcome_congr hline hm hm' hcategory hrecord ?_ fun hs category => ?_
  · cases hc with
    | same h => rw [h]
    | fields h _ => exact h.valueAt_eq q.line
  · cases hc with
    | same h => rw [h]
    | fields _ h => exact checkAligned_eq (h hs).1 (h hs).2 q.line category

theorem Alike.outcome_eq (h : p.Alike o q) (hline : p.line = q.line) :
    p.outcome o = q.outcome o := by
  cases h with
  | skipped h h' => rw [outcome_of_skipped h, outcome_of_skipped h']
  | compared hm hm' hv hcategory hc => exact outcome_eq_of_compared hline hm hm' hv hcategory hc

end RowPair

theorem collect_congr {ps qs : List RowPair}
    (h : List.Forall₂ (fun p q => p.outcome o = q.outcome o) ps qs) :
    collect o ps = collect o qs := by
  induction h with
  | nil => rfl
  | cons hpq _ ih => rw [collect, collect, hpq, ih]

variable {baseline comparison baseline' comparison' : List String}

/-- Logs whose rows agree in what counts have the same report, or the same error. -/
theorem alike_rows_same_outcome (h : baseline.length = comparison.length)
    (hb : baseline'.length = baseline.length) (hc : comparison'.length = comparison.length)
    (halike : ∀ (i : Nat) (p q : RowPair), (pairs baseline comparison)[i]? = some p →
      (pairs baseline' comparison')[i]? = some q → p.Alike o q) :
    compare o baseline comparison = compare o baseline' comparison' := by
  have h' : baseline'.length = comparison'.length := by omega
  have hlength : (pairs baseline comparison).length = (pairs baseline' comparison').length := by
    rw [length_pairs h, length_pairs h', hb]
  have houtcomes : List.Forall₂ (fun p q => p.outcome o = q.outcome o)
      (pairs baseline comparison) (pairs baseline' comparison') := by
    refine List.forall₂_iff_get.mpr ⟨hlength, fun i hi hi' => ?_⟩
    have hp := List.getElem?_eq_getElem hi
    have hq := List.getElem?_eq_getElem hi'
    refine (halike i _ _ hp hq).outcome_eq ?_
    exact (getElem?_pairs_eq_some_iff.mp hp).1.trans (getElem?_pairs_eq_some_iff.mp hq).1.symm
  rw [compare_of_length_eq h, compare_of_length_eq h', collect_congr houtcomes]

/-- A summing row against a row without the marker, a gain with other middle fields, and a
comparison row whose value is no number. -/
theorem alike_rows_same_outcome_three_rows :
    let o : Options := { strict := true }
    let baseline := ["map\tall\t2", "map\tq1\t0.5", "map\tq2\t0.5"]
    let comparison := ["", "map\tq1\t0.75", "map\tq2\tabc"]
    let baseline' := ["recall", "map_cut\tq1\t10\t0.5", "map\tq2\t\t0.5"]
    let comparison' := ["map", "map\tq1\t0.75", "map\tq2\t10\tabc"]
    compare o baseline comparison = compare o baseline' comparison' ∧
      (compare o baseline comparison).toOption = none := by
  intro o baseline comparison baseline' comparison'
  have hgain : SameValueField "map\tq1\t0.5" "map_cut\tq1\t10\t0.5" :=
    ⟨by decide +kernel, by decide +kernel, by decide +kernel⟩
  have hbad : SameValueField "map\tq2\tabc" "map\tq2\t10\tabc" :=
    ⟨by decide +kernel, by decide +kernel, by decide +kernel⟩
  refine ⟨alike_rows_same_outcome rfl rfl rfl fun i p q hp hq => ?_, by decide +kernel⟩
  match i with
  | 0 =>
    obtain rfl := Option.some.inj hp
    obtain rfl := Option.some.inj hq
    exact .skipped (.inr (by decide +kernel)) (.inl (by decide +kernel))
  | 1 =>
    obtain rfl := Option.some.inj hp
    obtain rfl := Option.some.inj hq
    exact .compared (by decide +kernel) (by decide +kernel) hgain (by decide +kernel) (.same rfl)
  | 2 =>
    obtain rfl := Option.some.inj hp
    obtain rfl := Option.some.inj hq
    exact .compared (by decide +kernel) (by decide +kernel)
      ⟨by decide +kernel, by decide +kernel, by decide +kernel⟩ (by decide +kernel)
      (.fields hbad fun _ => by decide +kernel)
  | i + 3 => cases hp

end Comparison
end EvalDiff
