import Mathlib.Data.List.Forall2
import EvalDiff.Proofs.Comparison.Outcome

/-!
# The walk over two logs

A comparison is an induction over the pairs of rows.  `collect_eq_ok_iff` and
`collect_eq_error_iff` say what the walk yields and where it ends; the statements about whole
comparisons follow from them without another induction over the logs.
-/

namespace EvalDiff
namespace Comparison

open Log Report

/-- Rows in step, numbered from a line on. -/
def pairsFrom (line : Nat) (rows : List (String × String)) : List RowPair :=
  rows.mapIdx fun i row => { line := line + i, baseline := row.1, comparison := row.2 }

/-- The lines of two logs in step, numbered from one. -/
def pairs (baseline comparison : List String) : List RowPair :=
  pairsFrom 1 (baseline.zip comparison)

theorem pairsFrom_cons (line : Nat) (row : String × String)
    (rows : List (String × String)) :
    pairsFrom line (row :: rows) =
      { line, baseline := row.1, comparison := row.2 } :: pairsFrom (line + 1) rows := by
  rw [pairsFrom, List.mapIdx_cons, pairsFrom]
  congr 1
  refine congrArg (fun f => rows.mapIdx f) (funext fun i => ?_)
  rw [Nat.add_right_comm, Nat.add_assoc line i 1]

theorem getElem?_pairs_eq_some_iff {baseline comparison : List String} {i : Nat}
    {p : RowPair} :
    (pairs baseline comparison)[i]? = some p ↔
      p.line = i + 1 ∧ baseline[i]? = some p.baseline ∧
        comparison[i]? = some p.comparison := by
  rw [pairs, pairsFrom, List.getElem?_mapIdx, Option.map_eq_some_iff]
  constructor
  · rintro ⟨⟨b, c⟩, hrow, rfl⟩
    obtain ⟨hb, hc⟩ := List.getElem?_zip_eq_some.mp hrow
    exact ⟨Nat.add_comm 1 i, hb, hc⟩
  · rintro ⟨hline, hb, hc⟩
    refine ⟨(p.baseline, p.comparison), List.getElem?_zip_eq_some.mpr ⟨hb, hc⟩, ?_⟩
    rw [Nat.add_comm 1 i, ← hline]

theorem pairs_eq_append {baseline comparison : List String} {before after : List RowPair}
    {p : RowPair} (h : pairs baseline comparison = before ++ p :: after) :
    (pairs baseline comparison)[before.length]? = some p ∧ p.line = before.length + 1 := by
  have hat : (pairs baseline comparison)[before.length]? = some p := by
    rw [h, List.getElem?_append_right (Nat.le_refl _), Nat.sub_self]
    rfl
  exact ⟨hat, (getElem?_pairs_eq_some_iff.mp hat).1⟩

theorem take_pairs (n : Nat) (baseline comparison : List String) :
    (pairs baseline comparison).take n = pairs (baseline.take n) (comparison.take n) := by
  refine List.ext_getElem? fun i => Option.ext fun p => ?_
  rw [getElem?_pairs_eq_some_iff]
  by_cases hi : i < n
  · rw [List.getElem?_take_of_lt hi, List.getElem?_take_of_lt hi, List.getElem?_take_of_lt hi]
    exact getElem?_pairs_eq_some_iff
  · rw [List.getElem?_take_eq_none (by omega), List.getElem?_take_eq_none (by omega)]
    exact iff_of_false nofun fun h => nomatch h.2.1

/-- What relates the rows of two pairs of logs relates the pairs of rows. -/
theorem forall₂_pairsFrom {R S : String → String → Prop}
    {baseline comparison baseline' comparison' : List String}
    (hb : List.Forall₂ R baseline baseline') (hc : List.Forall₂ S comparison comparison')
    (line : Nat) :
    List.Forall₂
      (fun p q => p.line = q.line ∧ R p.baseline q.baseline ∧ S p.comparison q.comparison)
      (pairsFrom line (baseline.zip comparison)) (pairsFrom line (baseline'.zip comparison')) := by
  induction hb generalizing line comparison comparison' with
  | nil => exact .nil
  | cons hrow hb ih =>
    cases hc with
    | nil => exact .nil
    | cons hrow' hc =>
      rw [List.zip_cons_cons, List.zip_cons_cons, pairsFrom_cons, pairsFrom_cons]
      exact .cons ⟨rfl, hrow, hrow'⟩ (ih hc (line + 1))

theorem length_pairs {baseline comparison : List String}
    (h : baseline.length = comparison.length) :
    (pairs baseline comparison).length = baseline.length := by
  rw [pairs, pairsFrom, List.length_mapIdx, List.length_zip, h, Nat.min_self]

/-! ### Pairs in a list -/

/-- The entry a pair of rows yields. -/
def RowPair.yield? (o : Options) (p : RowPair) : Option Entry :=
  match p.outcome o with
  | .ok found => found
  | .error _ => none

/-- The entries of a list of pairs, up to the first error. -/
def collect (o : Options) : List RowPair → Except Error (List Entry)
  | [] => return []
  | p :: rest => do
    let found ← p.outcome o
    let entries ← collect o rest
    return found.toList ++ entries

theorem compareLines_eq_collect (o : Options) (line : Nat) (rows : List (String × String)) :
    compareLines o line rows = collect o (pairsFrom line rows) := by
  induction rows generalizing line with
  | nil => rfl
  | cons row rows ih =>
    rw [pairsFrom_cons, compareLines, collect, ih]
    rfl

theorem collect_cons_of_error {o : Options} {p : RowPair} {e : Error} (rest : List RowPair)
    (h : p.outcome o = .error e) : collect o (p :: rest) = .error e := by
  rw [collect, h]
  rfl

theorem collect_cons_of_ok {o : Options} {p : RowPair} {found : Option Entry}
    (rest : List RowPair) (h : p.outcome o = .ok found) :
    collect o (p :: rest) = (collect o rest).map (found.toList ++ ·) := by
  rw [collect, h]
  show (collect o rest >>= fun entries => pure (found.toList ++ entries)) = _
  cases collect o rest <;> rfl

theorem collect_of_acceptable {o : Options} {ps : List RowPair}
    (h : ∀ p ∈ ps, p.Acceptable o) : collect o ps = .ok (ps.filterMap (·.yield? o)) := by
  induction ps with
  | nil => rfl
  | cons p rest ih =>
    obtain ⟨found, hfound⟩ := (RowPair.exists_outcome_eq_ok_iff o p).mpr
      (h p (List.mem_cons_self ..))
    have hentry : p.yield? o = found := by rw [RowPair.yield?, hfound]
    rw [collect_cons_of_ok rest hfound, ih fun q hq => h q (List.mem_cons_of_mem _ hq),
      List.filterMap_cons, hentry]
    cases found <;> rfl

/-- The walk is ended by the first pair that is not acceptable. -/
theorem collect_of_error {o : Options} {p : RowPair} {e : Error} {before : List RowPair}
    (after : List RowPair) (h : ∀ q ∈ before, q.Acceptable o) (hp : p.outcome o = .error e) :
    collect o (before ++ p :: after) = .error e := by
  induction before with
  | nil => exact collect_cons_of_error after hp
  | cons q before ih =>
    obtain ⟨found, hfound⟩ := (RowPair.exists_outcome_eq_ok_iff o q).mpr
      (h q (List.mem_cons_self ..))
    rw [List.cons_append, collect_cons_of_ok _ hfound,
      ih fun r hr => h r (List.mem_cons_of_mem _ hr)]
    rfl

/-- Every list of pairs is acceptable throughout, or has a first pair with an error. -/
theorem acceptable_or_error (o : Options) (ps : List RowPair) :
    (∀ p ∈ ps, p.Acceptable o) ∨
      ∃ before p after e, ps = before ++ p :: after ∧ (∀ q ∈ before, q.Acceptable o) ∧
        p.outcome o = .error e := by
  induction ps with
  | nil => exact Or.inl fun p hp => absurd hp (List.not_mem_nil)
  | cons p rest ih =>
    cases hp : p.outcome o with
    | error e => exact Or.inr ⟨[], p, rest, e, rfl, fun q hq => absurd hq (List.not_mem_nil), hp⟩
    | ok found =>
      have ha : p.Acceptable o := (RowPair.exists_outcome_eq_ok_iff o p).mp ⟨found, hp⟩
      rcases ih with hall | ⟨before, q, after, e, rfl, hbefore, hq⟩
      · exact Or.inl (List.forall_mem_cons.mpr ⟨ha, hall⟩)
      · exact Or.inr ⟨p :: before, q, after, e, rfl,
          List.forall_mem_cons.mpr ⟨ha, hbefore⟩, hq⟩

theorem collect_eq_ok_iff {o : Options} {ps : List RowPair} {entries : List Entry} :
    collect o ps = .ok entries ↔
      (∀ p ∈ ps, p.Acceptable o) ∧ entries = ps.filterMap (·.yield? o) := by
  constructor
  · intro h
    rcases acceptable_or_error o ps with hall | ⟨before, p, after, e, rfl, hbefore, hp⟩
    · rw [collect_of_acceptable hall] at h
      cases h
      exact ⟨hall, rfl⟩
    · rw [collect_of_error after hbefore hp] at h
      cases h
  · rintro ⟨hall, rfl⟩
    exact collect_of_acceptable hall

theorem collect_eq_error_iff {o : Options} {ps : List RowPair} {e : Error} :
    collect o ps = .error e ↔
      ∃ before p after, ps = before ++ p :: after ∧ (∀ q ∈ before, q.Acceptable o) ∧
        p.outcome o = .error e := by
  constructor
  · intro h
    rcases acceptable_or_error o ps with hall | ⟨before, p, after, e', rfl, hbefore, hp⟩
    · rw [collect_of_acceptable hall] at h
      cases h
    · rw [collect_of_error after hbefore hp] at h
      cases h
      exact ⟨before, p, after, rfl, hbefore, hp⟩
  · rintro ⟨before, p, after, rfl, hbefore, hp⟩
    exact collect_of_error after hbefore hp

/-! ### Whole comparisons -/

theorem compare_of_length_ne {o : Options} {baseline comparison : List String}
    (h : baseline.length ≠ comparison.length) :
    compare o baseline comparison =
      .error (.lengthsDiffer baseline.length comparison.length) := by
  rw [compare, if_neg h]
  rfl

theorem compare_of_length_eq {o : Options} {baseline comparison : List String}
    (h : baseline.length = comparison.length) :
    compare o baseline comparison =
      (collect o (pairs baseline comparison)).map (Report.ofEntries o.marker) := by
  rw [compare, if_pos h, compareLines_eq_collect]
  show (collect o (pairs baseline comparison) >>= _) = _
  cases collect o (pairs baseline comparison) <;> rfl

theorem compare_eq_ok_iff {o : Options} {baseline comparison : List String} {r : Report} :
    compare o baseline comparison = .ok r ↔
      baseline.length = comparison.length ∧
        (∀ p ∈ pairs baseline comparison, p.Acceptable o) ∧
        r = Report.ofEntries o.marker ((pairs baseline comparison).filterMap (·.yield? o)) := by
  by_cases h : baseline.length = comparison.length
  · rw [compare_of_length_eq h]
    constructor
    · intro hr
      cases hc : collect o (pairs baseline comparison) with
      | error e =>
        rw [hc] at hr
        cases hr
      | ok entries =>
        rw [hc] at hr
        cases hr
        obtain ⟨hall, rfl⟩ := collect_eq_ok_iff.mp hc
        exact ⟨h, hall, rfl⟩
    · rintro ⟨-, hall, rfl⟩
      rw [collect_of_acceptable hall]
      rfl
  · rw [compare_of_length_ne h]
    exact iff_of_false nofun fun hr => h hr.1

theorem compare_eq_error_iff {o : Options} {baseline comparison : List String}
    (h : baseline.length = comparison.length) {e : Error} :
    compare o baseline comparison = .error e ↔
      ∃ before p after, pairs baseline comparison = before ++ p :: after ∧
        (∀ q ∈ before, q.Acceptable o) ∧ p.outcome o = .error e := by
  rw [compare_of_length_eq h, ← collect_eq_error_iff]
  cases collect o (pairs baseline comparison) with
  | error e' => exact ⟨fun he => by cases he; rfl, fun he => by cases he; rfl⟩
  | ok entries => exact iff_of_false nofun nofun

end Comparison
end EvalDiff
