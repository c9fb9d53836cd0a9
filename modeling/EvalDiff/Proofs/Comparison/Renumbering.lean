import EvalDiff.Proofs.Comparison.Walk

/-!
# Rows under other line numbers

A comparison reads a line number only to report it.  Under other numbers a pair of rows has the
same outcome with the number replaced, in the entry or in the error, and so has a list of pairs.
The theorems this file exists for are `RowPair.outcome_renumber` and `collect_renumber`.
-/

namespace EvalDiff

/-- What is found under other line numbers. -/
def Report.Entry.renumber (f : Nat → Nat) (e : Report.Entry) : Report.Entry :=
  { e with line := f e.line }

namespace Comparison

open Log Report

/-- The error under other line numbers. -/
def Error.renumber (f : Nat → Nat) : Error → Error
  | .unreadable path fault => .unreadable path fault
  | .notText path line => .notText path (f line)
  | .lengthsDiffer baseline comparison => .lengthsDiffer baseline comparison
  | .badRow line fault => .badRow (f line) fault
  | .zeroBaseline line category => .zeroBaseline (f line) category
  | .misaligned line fault => .misaligned (f line) fault

/-- A result under other line numbers, where `g` says what becomes of a value. -/
def renumbered {α : Type} (f : Nat → Nat) (g : α → α) : Except Error α → Except Error α
  | .ok a => .ok (g a)
  | .error e => .error (e.renumber f)

variable {α β : Type} (f : Nat → Nat)

/-- The value of the first step holds no line numbers. -/
theorem renumbered_bind (g : β → β) (x : Except Error α) (k : α → Except Error β) :
    renumbered f g (x >>= k) = renumbered f id x >>= fun a => renumbered f g (k a) := by
  cases x <;> rfl

theorem renumbered_some (g : α → α) (x : Except Error α) :
    renumbered f (Option.map g) (some <$> x) = some <$> renumbered f g x := by
  cases x <;> rfl

theorem categoryAt_renumber (line : Nat) (row : String) :
    categoryAt (f line) row = renumbered f id (categoryAt line row) := by
  unfold categoryAt
  cases category? row <;> rfl

theorem recordAt_renumber (line : Nat) (row : String) :
    recordAt (f line) row = renumbered f id (recordAt line row) := by
  unfold recordAt
  cases Record.ofLine row <;> rfl

theorem checkAligned_renumber (o : Options) (line : Nat) (category comparison : String) :
    checkAligned o (f line) category comparison =
      renumbered f id (checkAligned o line category comparison) := by
  unfold checkAligned
  by_cases hm : isMarked o.marker comparison = true
  · rw [if_pos hm, if_pos hm, renumbered_bind, categoryAt_renumber]
    congr 1
    funext found
    by_cases hf : found = category
    · rw [if_pos hf, if_pos hf]
      rfl
    · rw [if_neg hf, if_neg hf]
      rfl
  · rw [if_neg hm, if_neg hm]
    rfl

theorem entryOfValues_renumber (line : Nat) (category : String) (x y : Binary64) :
    entryOfValues (f line) category x y =
      renumbered f (Entry.renumber f) (entryOfValues line category x y) := by
  simp only [entryOfValues]
  by_cases hv : Verdict.ofValues x y = .unchanged
  · rw [if_pos hv, if_pos hv]
    rfl
  · rw [if_neg hv, if_neg hv]
    by_cases hz : x.isZero = true
    · rw [if_pos hz, if_pos hz]
      rfl
    · rw [if_neg hz, if_neg hz]
      rfl

theorem compareRecords_renumber (line : Nat) (baseline comparison : String) :
    compareRecords (f line) baseline comparison =
      renumbered f (Entry.renumber f) (compareRecords line baseline comparison) := by
  simp only [compareRecords, renumbered_bind, recordAt_renumber, entryOfValues_renumber]

theorem compareLine_renumber (o : Options) (line : Nat) (baseline comparison : String) :
    compareLine o (f line) baseline comparison =
      renumbered f (Option.map (Entry.renumber f)) (compareLine o line baseline comparison) := by
  have hentry : some <$> compareRecords (f line) baseline comparison =
      renumbered f (Option.map (Entry.renumber f))
        (some <$> compareRecords line baseline comparison) := by
    rw [compareRecords_renumber, renumbered_some]
  unfold compareLine
  by_cases hm : isMarked o.marker baseline = true
  · rw [if_pos hm, if_pos hm, renumbered_bind, categoryAt_renumber]
    congr 1
    funext category
    by_cases hc : category = o.aggregate
    · rw [if_pos hc, if_pos hc]
      rfl
    · rw [if_neg hc, if_neg hc]
      by_cases hs : o.strict = true
      · simp only [if_pos hs]
        show (checkAligned o (f line) category comparison >>= fun _ => some <$> _) =
          renumbered f _ (checkAligned o line category comparison >>= fun _ => some <$> _)
        rw [renumbered_bind, checkAligned_renumber, hentry]
      · simp only [if_neg hs]
        exact hentry
  · rw [if_neg hm, if_neg hm]
    rfl

namespace RowPair

variable {o : Options}

/-- The same rows under another line number. -/
def renumber (p : RowPair) : RowPair := { p with line := f p.line }

theorem outcome_renumber (o : Options) (p : RowPair) :
    (p.renumber f).outcome o = renumbered f (Option.map (Entry.renumber f)) (p.outcome o) :=
  compareLine_renumber f o p.line p.baseline p.comparison

theorem yield?_renumber (o : Options) (p : RowPair) :
    (p.renumber f).yield? o = (p.yield? o).map (Entry.renumber f) := by
  rw [yield?, yield?, outcome_renumber]
  cases p.outcome o <;> rfl

/-- No demand on a pair of rows is about its line number. -/
theorem acceptable_renumber_iff (p : RowPair) : (p.renumber f).Acceptable o ↔ p.Acceptable o := by
  rw [← exists_outcome_eq_ok_iff, ← exists_outcome_eq_ok_iff, outcome_renumber]
  cases p.outcome o with
  | error e => exact iff_of_false nofun nofun
  | ok found => exact iff_of_true ⟨_, rfl⟩ ⟨_, rfl⟩

end RowPair

theorem collect_renumber (o : Options) (ps : List RowPair) :
    collect o (ps.map (RowPair.renumber f)) =
      renumbered f (List.map (Entry.renumber f)) (collect o ps) := by
  induction ps with
  | nil => rfl
  | cons p rest ih =>
    cases hp : p.outcome o with
    | error e =>
      have hp' : (p.renumber f).outcome o = .error (e.renumber f) := by
        rw [RowPair.outcome_renumber, hp]
        rfl
      rw [List.map_cons, collect_cons_of_error _ hp, collect_cons_of_error _ hp']
      rfl
    | ok found =>
      have hp' : (p.renumber f).outcome o = .ok (found.map (Entry.renumber f)) := by
        rw [RowPair.outcome_renumber, hp]
        rfl
      rw [List.map_cons, collect_cons_of_ok _ hp, collect_cons_of_ok _ hp', ih]
      cases collect o rest with
      | error e => rfl
      | ok entries =>
        show Except.ok _ = Except.ok _
        rw [List.map_append]
        cases found <;> rfl

end Comparison
end EvalDiff
