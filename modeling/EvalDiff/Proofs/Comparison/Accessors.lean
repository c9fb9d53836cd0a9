import EvalDiff.Proofs.Comparison.Outcome
import EvalDiff.Proofs.Text.Pieces

/-!
# What is looked up in a row

The marker and the category of a row are found without splitting all of it, and its record is made
from the whole list of fields.  Each of them splits the row on its own, but what they find are
always fields of the one list that gives the row back when it is joined, so they cannot disagree:
`row_accessors_agree`.
-/

namespace EvalDiff

namespace Text

variable {separator : Char} {cs piece : List Char}

theorem not_mem_of_mem_splitOn (h : piece ∈ splitOn separator cs) : separator ∉ piece := by
  rw [splitOn_eq] at h
  induction cs using cut_induction separator with
  | last cs hcs =>
    rw [List.splitOn_eq_singleton hcs, List.mem_singleton] at h
    rwa [h]
  | cut front rest hfront ih =>
    rw [List.splitOn_append_cons_self_of_not_mem hfront, List.mem_cons] at h
    rcases h with rfl | h
    · exact hfront
    · exact ih h

end Text

namespace Log

open Text

variable {row field : String}

theorem intercalate_fields (row : String) : "\t".intercalate (fields row) = row := by
  have hpieces : (fields row).map String.toList = splitOn '\t' row.toList := by
    rw [fields, List.map_map]
    exact List.map_id'' (fun _ => String.toList_ofList) _
  apply String.toList_inj.mp
  rw [String.toList_intercalate, hpieces]
  exact joinWith_splitOn '\t' row.toList

theorem tab_not_mem_of_mem_fields (h : field ∈ fields row) : '\t' ∉ field.toList := by
  obtain ⟨piece, hpiece, rfl⟩ := List.mem_map.mp h
  rw [String.toList_ofList]
  exact not_mem_of_mem_splitOn hpiece

end Log

namespace Comparison

open Log

variable {line : Nat} {row category : String} {record : Record}

theorem categoryAt_eq (line : Nat) (row : String) :
    categoryAt line row =
      if h : 2 ≤ (fields row).length then .ok (fields row)[1]
      else .error (.badRow line .noCategory) := by
  rw [categoryAt, category?_eq]
  by_cases h : 2 ≤ (fields row).length
  · rw [dif_pos h, List.getElem?_eq_getElem (by omega)]
  · rw [dif_neg h, List.getElem?_eq_none (by omega)]

theorem categoryAt_of_getElem? (h : (fields row)[1]? = some category) (line : Nat) :
    categoryAt line row = .ok category := by
  rw [categoryAt, category?_eq, h]

theorem recordAt_eq_ok_iff :
    recordAt line row = .ok record ↔
      3 ≤ (fields row).length ∧ (fields row)[1]? = some record.category ∧
        Binary64.ofToken (valueToken row) = .ok record.value := by
  rcases RowPair.recordAt_spec line row with
    ⟨hlt, herror⟩ | ⟨hge, ⟨fault, hfault, herror⟩ | ⟨category, x, hc, hx, hok⟩⟩
  · rw [herror]
    refine iff_of_false (fun h => ?_) fun h => absurd h.1 (by omega)
    cases h
  · rw [herror, hfault]
    refine iff_of_false (fun h => ?_) fun h => ?_
    · cases h
    · cases h.2.2
  · rw [hok, hc, hx]
    cases record
    simp [hge]

theorem exists_recordAt_eq_ok_iff :
    (∃ record, recordAt line row = .ok record) ↔
      3 ≤ (fields row).length ∧ ∃ x, Binary64.ofToken (valueToken row) = .ok x := by
  constructor
  · rintro ⟨record, h⟩
    obtain ⟨hge, -, hx⟩ := recordAt_eq_ok_iff.mp h
    exact ⟨hge, _, hx⟩
  · rintro ⟨hge, x, hx⟩
    have hc : (fields row)[1]? = some (fields row)[1] := List.getElem?_eq_getElem (by omega)
    exact ⟨⟨(fields row)[1], x⟩, recordAt_eq_ok_iff.mpr ⟨hge, hc, hx⟩⟩

/-- Whatever the row is, its fields have no tabs and give it back when they are joined.  Its marker
is looked for in the first of them, its category is the second, and its record has that category and
the number in the last of at least three. -/
theorem row_accessors_agree (marker row : String) (line : Nat) :
    ("\t".intercalate (fields row) = row ∧ ∀ field ∈ fields row, '\t' ∉ field.toList) ∧
      (isMarked marker row = true ↔ Marked marker row) ∧
      categoryAt line row =
        (if h : 2 ≤ (fields row).length then .ok (fields row)[1]
          else .error (.badRow line .noCategory)) ∧
      ((∃ record, recordAt line row = .ok record) ↔
        3 ≤ (fields row).length ∧ ∃ x, Binary64.ofToken (valueToken row) = .ok x) ∧
      ∀ record, recordAt line row = .ok record →
        categoryAt line row = .ok record.category ∧
          Binary64.ofToken (valueToken row) = .ok record.value := by
  refine ⟨⟨intercalate_fields row, fun _ => tab_not_mem_of_mem_fields⟩, isMarked_iff marker row,
    categoryAt_eq line row, exists_recordAt_eq_ok_iff, fun record hrecord => ?_⟩
  obtain ⟨-, hcategory, hvalue⟩ := recordAt_eq_ok_iff.mp hrecord
  exact ⟨categoryAt_of_getElem? hcategory line, hvalue⟩

/-- A row with an empty field, and with blanks around its value that are no tabs. -/
theorem row_accessors_agree_empty_field :
    let row := "map_cut\té\t\t NaN\r"
    " NaN\r" ∈ fields row ∧ '\t' ∉ " NaN\r".toList ∧
      recordAt 7 row = .ok { category := "é", value := .nan } ∧ categoryAt 7 row = .ok "é" ∧
      Binary64.ofToken (valueToken row) = .ok .nan := by
  intro row
  have hfield : " NaN\r" ∈ fields row := by decide
  have htoken : valueToken row = "NaN" := by decide
  have hrecord : recordAt 7 row = .ok { category := "é", value := .nan } := by
    refine recordAt_eq_ok_iff.mpr ⟨by decide, by decide, ?_⟩
    rw [htoken]
    rfl
  obtain ⟨⟨-, htabs⟩, -, -, -, hagree⟩ := row_accessors_agree "map" row 7
  obtain ⟨hcategory, hvalue⟩ := hagree _ hrecord
  exact ⟨hfield, htabs _ hfield, hrecord, hcategory, hvalue⟩

end Comparison
end EvalDiff
