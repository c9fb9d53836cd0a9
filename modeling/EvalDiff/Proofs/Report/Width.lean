import Mathlib.Order.Bounds.Defs
import EvalDiff.Report.Format

/-!
# The width of the category column

The category column has the size in octets of the longest category, and a character has at least
one octet, so every category has room in it.  A report has no table if that size is too much for a
column, and it can be written in every format otherwise.
-/

namespace EvalDiff
namespace Report

variable {r : Report} {e : Entry} {format : Format} {width : Nat}

theorem length_le_utf8ByteSize (text : String) : text.toList.length ≤ text.utf8ByteSize := by
  rw [← String.ofList_toList (s := text), String.toList_ofList]
  induction text.toList with
  | nil => exact Nat.le_refl 0
  | cons c cs ih =>
    have hpos := c.utf8Size_pos
    rw [String.ofList_cons, String.utf8ByteSize_append, String.utf8ByteSize_singleton,
      List.length_cons]
    omega

theorem categoryWidth_eq (r : Report) :
    categoryWidth r = (r.entries.map (·.category.utf8ByteSize)).max?.getD 0 := by
  rw [categoryWidth, ← Nat.zero_max ((r.entries.map _).max?.getD 0), ← List.foldl_max,
    List.foldl_map]

theorem le_categoryWidth (he : e ∈ r.entries) : e.category.utf8ByteSize ≤ categoryWidth r := by
  rw [categoryWidth_eq]
  exact List.le_max?_getD_of_mem (List.mem_map_of_mem he)

theorem isGreatest_categoryWidth (h : r.entries ≠ []) :
    IsGreatest {n | ∃ e ∈ r.entries, e.category.utf8ByteSize = n} (categoryWidth r) := by
  constructor
  · have hne : r.entries.map (·.category.utf8ByteSize) ≠ [] := mt List.map_eq_nil_iff.mp h
    obtain ⟨n, hn⟩ := Option.isSome_iff_exists.mp (List.isSome_max?_of_ne_nil hne)
    have hmem := List.mem_map.mp (List.max?_mem hn)
    rwa [categoryWidth_eq, hn]
  · rintro n ⟨e, he, rfl⟩
    exact le_categoryWidth he

theorem categoryWidth_le_iff :
    categoryWidth r ≤ width ↔ ∀ e ∈ r.entries, e.category.utf8ByteSize ≤ width := by
  refine ⟨fun h e he => Nat.le_trans (le_categoryWidth he) h, fun h => ?_⟩
  by_cases hentries : r.entries = []
  · rw [categoryWidth, hentries]
    exact Nat.zero_le width
  · obtain ⟨e, he, hsize⟩ := (isGreatest_categoryWidth hentries).1
    rw [← hsize]
    exact h e he

/-- No category of a table is longer than a column can be wide. -/
def Fits (r : Report) (format : Format) : Prop :=
  format = .summary → ∀ e ∈ r.entries, e.category.utf8ByteSize ≤ 65535

instance (r : Report) (format : Format) : Decidable (r.Fits format) :=
  inferInstanceAs (Decidable (_ → _))

theorem fits_summary_iff : r.Fits .summary ↔ categoryWidth r ≤ widestColumn := by
  rw [categoryWidth_le_iff]
  exact ⟨fun h => h rfl, fun h _ => h⟩

theorem Fits.render?_eq (h : r.Fits format) (color : Bool) :
    render? format color r = some (render format color r) := by
  cases format with
  | summary => exact if_pos (fits_summary_iff.mp h)
  | text | json | jsonPretty => rfl

end Report
end EvalDiff
