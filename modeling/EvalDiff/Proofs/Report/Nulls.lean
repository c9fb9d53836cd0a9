import EvalDiff.Proofs.Report.Document

/-!
# Nulls in a report

What the JSON of a report has for null is its doubles that are not finite, one null for each.  The
null of a delta stands in the row of its entry.
-/

namespace EvalDiff

namespace Json

mutual

/-- How often a value is null or has null inside. -/
def Value.nulls : Value → Nat
  | .null => 1
  | .boolean _ => 0
  | .number _ => 0
  | .string _ => 0
  | .array items => nullsItems items
  | .object members => nullsMembers members

def nullsItems : List Value → Nat
  | [] => 0
  | item :: items => item.nulls + nullsItems items

def nullsMembers : List (Option String × Value) → Nat
  | [] => 0
  | (_, value) :: members => value.nulls + nullsMembers members

end

theorem ofBinary64_cases (x : Binary64) :
    (x.isFinite = false ∧ Value.ofBinary64 x = .null) ∨
      (x.isFinite = true ∧ ∃ n, Value.ofBinary64 x = .number n) := by
  cases x with
  | nan => exact Or.inl ⟨rfl, rfl⟩
  | number negative rank h =>
    by_cases htop : rank = topRank
    · exact Or.inl ⟨decide_eq_false (Nat.not_lt.mpr htop.ge), if_pos htop⟩
    · exact Or.inr ⟨decide_eq_true (Nat.lt_of_le_of_ne h htop), _, if_neg htop⟩

theorem ofBinary64_eq_null_iff {x : Binary64} :
    Value.ofBinary64 x = .null ↔ x.isFinite = false := by
  rcases ofBinary64_cases x with ⟨hx, hnull⟩ | ⟨hx, n, hnumber⟩
  · exact iff_of_true hnull hx
  · simp [hnumber, hx]

theorem nulls_ofBinary64 (x : Binary64) :
    (Value.ofBinary64 x).nulls = if x.isFinite then 0 else 1 := by
  rcases ofBinary64_cases x with ⟨hx, hnull⟩ | ⟨hx, n, hnumber⟩
  · rw [hnull, hx]
    rfl
  · rw [hnumber, hx]
    rfl

theorem nullsItems_ofBinary64 (xs : List Binary64) :
    nullsItems (xs.map .ofBinary64) = xs.countP fun x => !x.isFinite := by
  induction xs with
  | nil => rfl
  | cons x xs ih =>
    rw [List.map_cons, nullsItems, nulls_ofBinary64, ih, List.countP_cons, Nat.add_comm]
    cases x.isFinite <;> rfl

end Json

namespace Report

open Json

/-- Names are no nulls. -/
theorem nulls_record {names : List String} {values : List Value}
    (h : values.length ≤ names.length) :
    (record (names.zip values)).nulls = nullsItems values := by
  show nullsMembers ((names.zip values).map _) = nullsItems values
  induction names generalizing values with
  | nil =>
    rw [List.eq_nil_of_length_eq_zero (Nat.eq_zero_of_le_zero h)]
    rfl
  | cons name names ih =>
    cases values with
    | nil => rfl
    | cons v values =>
      rw [List.zip_cons_cons, List.map_cons, nullsMembers, nullsItems,
        ih (Nat.le_of_succ_le_succ h)]

theorem nulls_entryValue (e : Entry) :
    (entryValue e).nulls = e.doubles.countP fun x => !x.isFinite := by
  rw [entryValue, nulls_record, ← nullsItems_ofBinary64]
  · simp [nullsItems, Entry.doubles, Value.nulls, textValue, Value.ofNat]
  · exact Nat.le_refl 6

theorem nulls_summaryValue (s : Summary) :
    (summaryValue s).nulls = s.doubles.countP fun x => !x.isFinite := by
  rw [summaryValue, nulls_record]
  · exact nullsItems_ofBinary64 s.doubles
  · exact Nat.le_refl 4

theorem nullsItems_entryValue (entries : List Entry) :
    nullsItems (entries.map entryValue) =
      (entries.flatMap Entry.doubles).countP fun x => !x.isFinite := by
  induction entries with
  | nil => rfl
  | cons e entries ih =>
    rw [List.map_cons, nullsItems, nulls_entryValue, ih, List.flatMap_cons, List.countP_append]

theorem nulls_toValue (r : Report) : (toValue r).nulls = r.doubles.countP fun x => !x.isFinite := by
  rw [toValue, nulls_record, doubles, List.countP_append, ← nullsItems_entryValue,
    ← nulls_summaryValue]
  · simp [nullsItems, Value.nulls, textValue]
  · exact Nat.le_refl 3

/-- An object has a value as its only member with a name. -/
inductive HasMember : Value → String → Value → Prop where
  | intro {members : List (Option String × Value)} {name : String} {v : Value}
    (h : member? members name = some v) : HasMember (.object members) name v

theorem hasMember_record {names : List String} {values : List Value} {name : String} {v : Value}
    (hnames : names.Nodup) (h : (name, v) ∈ names.zip values) :
    HasMember (record (names.zip values)) name v :=
  .intro (member?_record hnames h)

/-- The row of an entry in JSON, which has null for the delta exactly if that is not finite. -/
def IsRowWithDelta (e : Entry) (row : Value) : Prop :=
  ∃ delta, HasMember row "relative_delta" delta ∧ (delta = .null ↔ e.delta.isFinite = false)

theorem isRowWithDelta_entryValue (e : Entry) : IsRowWithDelta e (entryValue e) :=
  ⟨.ofBinary64 e.delta, hasMember_record (by decide) (by simp [entryNames]), ofBinary64_eq_null_iff⟩

/-- In both layouts a report is written as JSON that has a null for each double that is not finite
and no other.  The nulls for deltas stand in the rows of their entries. -/
theorem exists_read_nulls (r : Report) (color : Bool) {format : Format}
    (h : format = .json ∨ format = .jsonPretty) :
    ∃ v rows, read? (r.render format color).toList = some v ∧
      (v.nulls = r.doubles.countP fun x => !x.isFinite) ∧
      HasMember v "results" (.array rows) ∧ List.Forall₂ IsRowWithDelta r.entries rows := by
  refine ⟨toValue r, r.entries.map entryValue, ?_, nulls_toValue r,
    hasMember_record (by decide) (by simp [reportNames]), ?_⟩
  · rcases h with rfl | rfl
    · rw [render, document, String.toList_ofList, read?_write blank_compact (proper_toValue r)]
    · rw [render, document, String.toList_ofList, read?_write blank_indented (proper_toValue r)]
  · rw [List.forall₂_map_right_iff, List.forall₂_same]
    exact fun e _ => isRowWithDelta_entryValue e

end Report
end EvalDiff
