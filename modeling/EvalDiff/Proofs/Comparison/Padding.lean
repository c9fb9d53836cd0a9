import Mathlib.Data.List.TakeWhile
import EvalDiff.Proofs.Comparison.Influence
import EvalDiff.Proofs.Text.Pieces

/-!
# Blanks after a row

A row may be followed by blanks, such as the ending of the line it stood on.  Unless they start
another field they belong to the last one, and there they are cut off when the value is read:
`padded_rows_same_outcome`.  They would count in a row whose last field is the category, and in a
row of one field if the marker had blanks of its own.
-/

namespace EvalDiff

namespace Text

variable {cs padding : List Char}

theorem trim_append_blank (h : ∀ c ∈ padding, isBlank c = true) (cs : List Char) :
    trim (cs ++ padding) = trim cs := by
  have hpadding : padding.dropWhile isBlank = [] := List.dropWhile_eq_nil_iff.mpr h
  have hreverse : ∀ c ∈ padding.reverse, isBlank c = true :=
    fun c hc => h c (List.mem_reverse.mp hc)
  rw [trim, trim, List.dropWhile_append]
  by_cases hcs : (cs.dropWhile isBlank).isEmpty = true
  · rw [if_pos hcs, hpadding, List.isEmpty_iff.mp hcs]
  · rw [if_neg hcs, List.reverse_append, List.dropWhile_append_of_pos hreverse]

/-- What follows without a separator goes to the last piece. -/
theorem splitOn_append {separator : Char} (h : separator ∉ padding) (cs : List Char) :
    ∃ front last, splitOn separator cs = front ++ [last] ∧
      splitOn separator (cs ++ padding) = front ++ [last ++ padding] := by
  simp only [splitOn_eq]
  induction cs using cut_induction separator with
  | last cs hcs =>
    have hboth : separator ∉ cs ++ padding := by simp [hcs, h]
    exact ⟨[], cs, List.splitOn_eq_singleton hcs, List.splitOn_eq_singleton hboth⟩
  | cut piece rest hpiece ih =>
    obtain ⟨front, last, hrest, hpadded⟩ := ih
    refine ⟨piece :: front, last, ?_, ?_⟩
    · rw [List.splitOn_append_cons_self_of_not_mem hpiece, hrest, List.cons_append]
    · rw [List.append_assoc, List.cons_append, List.splitOn_append_cons_self_of_not_mem hpiece,
        hpadded, List.cons_append]

theorem isPrefix_append_iff {marker : List Char} (h : ∀ c ∈ marker, c ∉ padding) :
    marker <+: cs ++ padding ↔ marker <+: cs := by
  refine ⟨fun hmarker => ?_, fun hmarker => hmarker.trans (List.prefix_append cs padding)⟩
  rcases List.prefix_or_prefix_of_prefix hmarker (List.prefix_append cs padding) with hcs | hcs
  · exact hcs
  · obtain ⟨excess, rfl⟩ := hcs
    -- What the marker has more than the row would stand in the padding.
    have hexcess : excess <+: padding := (List.prefix_append_right_inj cs).mp hmarker
    cases excess with
    | nil => simp
    | cons c excess =>
      have hc : c ∈ cs ++ c :: excess := by simp
      exact absurd (hexcess.subset (List.mem_cons_self ..)) (h c hc)

end Text

namespace Comparison

open Log Report Text

/-- Blanks, none of which starts another field. -/
def IsPadding (padding : String) : Prop := ∀ c ∈ padding.toList, isBlank c = true ∧ c ≠ '\t'

instance (padding : String) : Decidable (IsPadding padding) :=
  List.decidableBAll (fun c => isBlank c = true ∧ c ≠ '\t') padding.toList

/-- A row and the same row with blanks after it. -/
def Padded (row row' : String) : Prop := ∃ padding, IsPadding padding ∧ row' = row ++ padding

variable {o : Options} {row row' : String}

namespace Padded

theorem fields_eq (h : Padded row row') :
    ∃ front last padding, (∀ c ∈ padding, isBlank c = true) ∧
      fields row = front ++ [String.ofList last] ∧
      fields row' = front ++ [String.ofList (last ++ padding)] := by
  obtain ⟨padding, hpadding, rfl⟩ := h
  have htab : '\t' ∉ padding.toList := fun hmem => (hpadding _ hmem).2 rfl
  obtain ⟨front, last, hrow, hpadded⟩ := splitOn_append htab row.toList
  refine ⟨front.map String.ofList, last, padding.toList, fun c hc => (hpadding c hc).1, ?_, ?_⟩
  · rw [fields, hrow, List.map_append]
    rfl
  · rw [fields, String.toList_append, hpadded, List.map_append]
    rfl

theorem length_eq (h : Padded row row') : (fields row').length = (fields row).length := by
  obtain ⟨front, last, padding, -, hrow, hpadded⟩ := h.fields_eq
  rw [hrow, hpadded, List.length_append, List.length_append]
  rfl

/-- Only the last field is another one. -/
theorem getElem?_eq (h : Padded row row') {i : Nat} (hi : i + 1 < (fields row).length) :
    (fields row)[i]? = (fields row')[i]? := by
  obtain ⟨front, last, padding, -, hrow, hpadded⟩ := h.fields_eq
  have hlt : i < front.length := by
    rw [hrow, List.length_append, List.length_singleton] at hi
    omega
  rw [hrow, hpadded, List.getElem?_append_left hlt, List.getElem?_append_left hlt]

theorem valueToken_eq (h : Padded row row') : valueToken row = valueToken row' := by
  obtain ⟨front, last, padding, hblank, hrow, hpadded⟩ := h.fields_eq
  simp only [valueToken, hrow, hpadded, List.getLast_concat, String.toList_ofList]
  rw [trim_append_blank hblank]

theorem marked_iff {marker : String} (h : Padded row row')
    (hmarker : ∀ c ∈ marker.toList, isBlank c = false) :
    Marked marker row' ↔ Marked marker row := by
  obtain ⟨front, last, padding, hblank, hrow, hpadded⟩ := h.fields_eq
  cases front with
  | cons first front => simp only [Marked, hrow, hpadded, List.cons_append, List.head_cons]
  | nil =>
    simp only [Marked, hrow, hpadded, List.nil_append, List.head_cons, String.toList_ofList]
    refine isPrefix_append_iff fun c hc hmem => ?_
    have hfalse := (hmarker c hc).symm.trans (hblank c hmem)
    cases hfalse

theorem recordAt_eq (h : Padded row row') (hlength : 3 ≤ (fields row).length) (line : Nat) :
    recordAt line row = recordAt line row' :=
  recordAt_congr hlength (h.length_eq ▸ hlength) (h.getElem?_eq (by omega)) h.valueToken_eq line

theorem checkAligned_eq (h : Padded row row') (hlength : 3 ≤ (fields row).length) (line : Nat)
    (category : String) : checkAligned o line category row = checkAligned o line category row' :=
  Comparison.checkAligned_eq (h.getElem?_eq (by omega)) (h.getElem?_eq (by omega)) line category

end Padded

/-- A row with the marker and the row it is paired with have a field for the value. -/
def RowPair.HasValueFields (o : Options) (p : RowPair) : Prop :=
  Marked o.marker p.baseline → 3 ≤ (fields p.baseline).length ∧ 3 ≤ (fields p.comparison).length

theorem RowPair.outcome_eq_of_padded {p q : RowPair} (hline : p.line = q.line)
    (hbaseline : Padded p.baseline q.baseline) (hcomparison : Padded p.comparison q.comparison)
    (hmarker : ∀ c ∈ o.marker.toList, isBlank c = false) (hfields : p.HasValueFields o) :
    p.outcome o = q.outcome o := by
  have hmarked := hbaseline.marked_iff hmarker
  by_cases hm : Marked o.marker p.baseline
  · obtain ⟨hb, hc⟩ := hfields hm
    refine outcome_congr hline hm (hmarked.mpr hm) (hbaseline.getElem?_eq (by omega))
      (hbaseline.recordAt_eq hb q.line) ?_ fun _ => hcomparison.checkAligned_eq hc q.line
    rw [valueAt, valueAt, hcomparison.recordAt_eq hc]
  · rw [outcome_of_skipped (.inl hm), outcome_of_skipped (.inl (mt hmarked.mp hm))]

variable {baseline comparison baseline' comparison' : List String}

/-- Blanks after the rows of both logs make no difference, in either mode. -/
theorem padded_rows_same_outcome (hmarker : ∀ c ∈ o.marker.toList, isBlank c = false)
    (hfields : ∀ p ∈ pairs baseline comparison, p.HasValueFields o)
    (hb : List.Forall₂ Padded baseline baseline')
    (hc : List.Forall₂ Padded comparison comparison') :
    compare o baseline comparison = compare o baseline' comparison' := by
  have houtcomes : List.Forall₂ (fun p q => p.outcome o = q.outcome o)
      (pairs baseline comparison) (pairs baseline' comparison') := by
    have hpairs := (List.forall₂_and_left _ _).mpr ⟨hfields, forall₂_pairsFrom hb hc 1⟩
    exact hpairs.imp fun p q ⟨hp, hline, hpb, hpc⟩ =>
      RowPair.outcome_eq_of_padded hline hpb hpc hmarker hp
  by_cases h : baseline.length = comparison.length
  · have h' : baseline'.length = comparison'.length := by rwa [← hb.length_eq, ← hc.length_eq]
    rw [compare_of_length_eq h, compare_of_length_eq h', collect_congr houtcomes]
  · have h' : baseline'.length ≠ comparison'.length := by rwa [← hb.length_eq, ← hc.length_eq]
    rw [compare_of_length_ne h, compare_of_length_ne h', hb.length_eq, hc.length_eq]

/-- A row of one field that must not come to carry the marker, a narrow no-break space after a
value, line endings, and a value that is no number and is quoted without the blanks. -/
theorem padded_rows_same_outcome_three_rows :
    let o : Options := { marker := "map", strict := true }
    let baseline := ["ma", "map\tq1\t0.5", "map\tq2\t10\t0.5"]
    let comparison := ["", "map\tq1\t0.75", "map\tq2\tabc"]
    let baseline' := ["ma\u2003", "map\tq1\t0.5\r\n", "map\tq2\t10\t0.5"]
    let comparison' := ["\n", "map\tq1\t0.75\u202f", "map\tq2\tabc \x0b\n"]
    compare o baseline comparison = compare o baseline' comparison' ∧
      compare o baseline comparison = .error (.badRow 3 (.invalidValue "abc" .malformed)) := by
  intro o baseline comparison baseline' comparison'
  have hfields : ∀ p ∈ pairs baseline comparison, p.HasValueFields o := by
    unfold RowPair.HasValueFields
    decide +kernel
  have hb : List.Forall₂ Padded baseline baseline' :=
    .cons ⟨"\u2003", by decide +kernel, rfl⟩ (.cons ⟨"\r\n", by decide +kernel, rfl⟩
      (.cons ⟨"", by decide +kernel, rfl⟩ .nil))
  have hc : List.Forall₂ Padded comparison comparison' :=
    .cons ⟨"\n", by decide +kernel, rfl⟩ (.cons ⟨"\u202f", by decide +kernel, rfl⟩
      (.cons ⟨" \x0b\n", by decide +kernel, rfl⟩ .nil))
  have hmarker : ∀ c ∈ o.marker.toList, isBlank c = false := by
    have hall : (o.marker.toList.all fun c => !isBlank c) = true := by decide +kernel
    simpa using hall
  exact ⟨padded_rows_same_outcome hmarker hfields hb hc, by decide +kernel⟩

end Comparison
end EvalDiff
