import EvalDiff.Log.Record

/-!
# Rows as lists of fields

The marker, the category and the value of a row are each looked up in their own way.  Here all
three are expressed through the one list `fields`: the marker belongs to the first field, the
category is the second, and the value is read from the last of at least three.
-/

namespace EvalDiff

namespace Text

/-- The first piece reaches up to the first separator, and the other pieces are those of what
follows it. -/
theorem splitOn_eq_takeWhile (separator : Char) (cs : List Char) :
    splitOn separator cs =
      cs.takeWhile (· != separator) ::
        match cs.dropWhile (· != separator) with
        | [] => []
        | _ :: rest => splitOn separator rest := by
  induction cs with
  | nil => rfl
  | cons c cs ih =>
    rw [splitOn_cons]
    by_cases hc : c = separator
    · subst hc
      simp
    · rw [if_neg hc, List.takeWhile_cons, List.dropWhile_cons, ih]
      simp [hc]

end Text

namespace Log

open Text

theorem fields_eq_beforeTab (row : String) :
    fields row =
      String.ofList (beforeTab row.toList) ::
        match afterTab? row.toList with
        | none => []
        | some rest => (splitOn '\t' rest).map String.ofList := by
  rw [fields, splitOn_eq_takeWhile, afterTab?, beforeTab]
  cases row.toList.dropWhile (· != '\t') with
  | nil => rfl
  | cons _ rest => rfl

theorem fields_ne_nil (row : String) : fields row ≠ [] := by
  rw [fields_eq_beforeTab]
  exact List.cons_ne_nil _ _

/-- The first field starts with a marker. -/
def Marked (marker row : String) : Prop :=
  marker.toList <+: ((fields row).head (fields_ne_nil row)).toList

theorem isMarked_iff (marker row : String) : isMarked marker row = true ↔ Marked marker row := by
  have hhead : (fields row).head (fields_ne_nil row) = String.ofList (beforeTab row.toList) := by
    simp only [fields_eq_beforeTab, List.head_cons]
  rw [isMarked, List.isPrefixOf_iff_prefix, Marked, hhead, String.toList_ofList]

instance (marker row : String) : Decidable (Marked marker row) :=
  decidable_of_iff _ (isMarked_iff marker row)

theorem category?_eq (row : String) : category? row = (fields row)[1]? := by
  rw [category?, fields_eq_beforeTab]
  cases afterTab? row.toList with
  | none => rfl
  | some rest =>
    show some (String.ofList (beforeTab rest)) = ((splitOn '\t' rest).map String.ofList)[0]?
    rw [splitOn_eq_takeWhile]
    rfl

/-- The last field without the blanks around it. -/
def valueToken (row : String) : String :=
  String.ofList (trim ((fields row).getLast (fields_ne_nil row)).toList)

theorem Record.ofLine_of_lt {row : String} (h : (fields row).length < 3) :
    Record.ofLine row = .error (.tooFewFields (fields row).length) := by
  unfold Record.ofLine
  split
  · rename_i hf
    rw [hf] at h
    simp only [List.length_cons] at h
    omega
  · rfl

theorem Record.ofLine_of_ge {row category : String} (h : 3 ≤ (fields row).length)
    (hc : (fields row)[1]? = some category) :
    Record.ofLine row =
      match Binary64.ofToken (valueToken row) with
      | .ok value => .ok { category, value }
      | .error fault => .error (.invalidValue (valueToken row) fault) := by
  unfold Record.ofLine
  split
  · rename_i first second field more hf
    have hlast : (field :: more).getLast (List.cons_ne_nil _ _) =
        (fields row).getLast (fields_ne_nil row) := by
      simp only [hf]
      rfl
    rw [hf] at hc
    cases hc
    rw [hlast, readValue, ← valueToken]
    cases Binary64.ofToken (valueToken row) with
    | ok value => rfl
    | error fault => rfl
  · rename_i hf
    match hfields : fields row, h with
    | first :: second :: field :: more, _ => exact absurd hfields (hf _ _ _ _)

end Log
end EvalDiff
