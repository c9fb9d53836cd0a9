import EvalDiff.Proofs.Comparison.Renumbering
import EvalDiff.Proofs.Comparison.Summary

/-!
# Logs put together from parts

The rows of a second part keep their outcomes and move down by the length of the first part.  So
the parts can be compared on their own, and the comparison of the whole follows from the two
outcomes: `concatenation_by_parts`.  The floor of the worse count is put under the total and not
under each part, which is why it is told by the entries and not by the counts of the parts.
-/

namespace EvalDiff
namespace Comparison

open Binary64 Report

variable {o : Options} {baseline comparison baseline' comparison' : List String}

theorem pairsFrom_add (line n : Nat) (rows : List (String × String)) :
    pairsFrom (line + n) rows = (pairsFrom line rows).map (RowPair.renumber (· + n)) := by
  induction rows generalizing line with
  | nil => rfl
  | cons row rows ih =>
    rw [pairsFrom_cons, pairsFrom_cons, List.map_cons, Nat.add_right_comm, ih]
    rfl

theorem pairsFrom_append (line : Nat) (rows rows' : List (String × String)) :
    pairsFrom line (rows ++ rows') =
      pairsFrom line rows ++ pairsFrom (line + rows.length) rows' := by
  induction rows generalizing line with
  | nil => rfl
  | cons row rows ih =>
    rw [List.cons_append, pairsFrom_cons, pairsFrom_cons, List.cons_append, ih, List.length_cons,
      Nat.add_right_comm, Nat.add_assoc]

theorem pairs_append (h : baseline.length = comparison.length) :
    pairs (baseline ++ baseline') (comparison ++ comparison') =
      pairs baseline comparison ++
        (pairs baseline' comparison').map (RowPair.renumber (· + baseline.length)) := by
  have hlength : (baseline.zip comparison).length = baseline.length := by
    rw [List.length_zip, h, Nat.min_self]
  rw [pairs, pairs, pairs, List.zip_append h, pairsFrom_append, hlength, pairsFrom_add]

/-- The first error ends the walk, in whichever part it is. -/
theorem collect_append (o : Options) (ps qs : List RowPair) :
    collect o (ps ++ qs) = collect o ps >>= fun es => (collect o qs).map (es ++ ·) := by
  induction ps with
  | nil =>
    show collect o qs = (collect o qs).map fun fs => fs
    cases collect o qs <;> rfl
  | cons p rest ih =>
    rw [List.cons_append]
    cases hp : p.outcome o with
    | error e =>
      rw [collect_cons_of_error _ hp, collect_cons_of_error _ hp]
      rfl
    | ok found =>
      rw [collect_cons_of_ok _ hp, collect_cons_of_ok _ hp, ih]
      cases collect o rest with
      | error e => rfl
      | ok es =>
        show ((collect o qs).map (es ++ ·)).map (found.toList ++ ·) =
          (collect o qs).map (found.toList ++ es ++ ·)
        cases collect o qs with
        | error e => rfl
        | ok fs => exact congrArg Except.ok (List.append_assoc _ es fs).symm

/-- The entries of two parts, the second of which starts after `n` lines. -/
def entriesAfter (n : Nat) (entries entries' : List Entry) : List Entry :=
  entries ++ entries'.map (Entry.renumber (· + n))

theorem compare_append (h : baseline.length = comparison.length)
    (h' : baseline'.length = comparison'.length) :
    compare o (baseline ++ baseline') (comparison ++ comparison') =
      match compare o baseline comparison, compare o baseline' comparison' with
      | .error e, _ => .error e
      | .ok _, .error e => .error (e.renumber (· + baseline.length))
      | .ok r, .ok s => .ok (.ofEntries o.marker (entriesAfter baseline.length r.entries s.entries))
      := by
  have hlength : (baseline ++ baseline').length = (comparison ++ comparison').length := by
    rw [List.length_append, List.length_append, h, h']
  rw [compare_of_length_eq h, compare_of_length_eq h', compare_of_length_eq hlength,
    pairs_append h, collect_append, collect_renumber]
  cases collect o (pairs baseline comparison) with
  | error e => rfl
  | ok es => cases collect o (pairs baseline' comparison') <;> rfl

theorem count_entriesAfter (metric : String) (n : Nat) (r s : Report) (v : Verdict) :
    (Report.ofEntries metric (entriesAfter n r.entries s.entries)).count v =
      r.count v + s.count v := by
  show (entriesAfter n r.entries s.entries).countP _ = _
  rw [entriesAfter, List.countP_append, List.countP_map]
  rfl

/-- A whole has the outcome of its parts: the error of the first part that fails, at its own line,
or the entries of both.  Each count is the sum over the parts, and only the worse count has its
floor on top of the sum. -/
theorem concatenation_by_parts (o : Options) (h : baseline.length = comparison.length)
    (h' : baseline'.length = comparison'.length)
    (hlength : baseline.length + baseline'.length ≤ 2 ^ 53) :
    (∀ e, compare o baseline comparison = .error e →
      compare o (baseline ++ baseline') (comparison ++ comparison') = .error e) ∧
    (∀ r e, compare o baseline comparison = .ok r → compare o baseline' comparison' = .error e →
      compare o (baseline ++ baseline') (comparison ++ comparison') =
        .error (e.renumber (· + baseline.length))) ∧
    ∀ r s, compare o baseline comparison = .ok r → compare o baseline' comparison' = .ok s →
      ∃ t, compare o (baseline ++ baseline') (comparison ++ comparison') = .ok t ∧
        t.metric = o.marker ∧
        t.entries = r.entries ++ s.entries.map (Entry.renumber (· + baseline.length)) ∧
        t.summary.better = r.summary.better + s.summary.better ∧
        IsNat t.summary.better (r.count .better + s.count .better) ∧
        t.summary.unchanged = r.summary.unchanged + s.summary.unchanged ∧
        IsNat t.summary.unchanged (r.count .unchanged + s.count .unchanged) ∧
        IsNat t.summary.worse (max 1 (r.count .worse + s.count .worse)) ∧
        t.summary.ratio = t.summary.better / t.summary.worse ∧
        t.hasRegressions = (r.hasRegressions || s.hasRegressions) := by
  have happend := compare_append (o := o) h h'
  refine ⟨?_, ?_, ?_⟩
  · intro e he
    rw [happend, he]
  · intro r e hr he
    rw [happend, hr, he]
  · intro r s hr hs
    rw [hr, hs] at happend
    have hwhole : (baseline ++ baseline').length ≤ 2 ^ 53 := by
      rw [List.length_append]
      exact hlength
    obtain ⟨hrb, hru, -⟩ := exact_counts_of_compare (by omega) hr
    obtain ⟨hsb, hsu, -⟩ := exact_counts_of_compare (by omega) hs
    obtain ⟨htb, htu, htw⟩ := exact_counts_of_compare hwhole happend
    have hle : ∀ v, r.count v + s.count v ≤ 2 ^ 53 := by
      intro v
      have hr_le := Nat.le_trans (count_le_length r v) (length_entries_le hr)
      have hs_le := Nat.le_trans (count_le_length s v) (length_entries_le hs)
      omega
    rw [count_entriesAfter] at htb htu htw
    refine ⟨_, happend, rfl, rfl, htb.unique (hrb.add hsb (hle _)), htb,
      htu.unique (hru.add hsu (hle _)), htu, htw, rfl, ?_⟩
    show (entriesAfter _ _ _).any _ = _
    rw [entriesAfter, List.any_append, List.any_map]
    rfl

/-- Both parts have a loss, so the whole has two, and the second part alone has a gain. -/
theorem concatenation_by_parts_two_losses :
    let baseline := ["num_q\tall\t2", "map\tq1\t0.5"]
    let comparison := ["num_q\tall\t2", "map\tq1\t0.25"]
    let baseline' := ["map\tq2\t0.5", "map\tq3\t0.5"]
    let comparison' := ["map\tq2\t0.25", "map\tq3\t1"]
    baseline.length = comparison.length ∧ baseline'.length = comparison'.length ∧
      ∃ t, compare {} (baseline ++ baseline') (comparison ++ comparison') = .ok t ∧
        IsNat t.summary.better 1 ∧ IsNat t.summary.worse 2 ∧
        t.entries.map (·.line) = [2, 3, 4] := by
  intro baseline comparison baseline' comparison'
  have h : baseline.length = comparison.length := rfl
  have h' : baseline'.length = comparison'.length := rfl
  obtain ⟨-, -, hparts⟩ := concatenation_by_parts {} h h' (by decide)
  have hrun : ((compare {} baseline comparison).toOption.map fun r =>
      (r.entries.map (·.line), r.count .better, r.count .worse)) = some ([2], 0, 1) := by
    decide +kernel
  have hrun' : ((compare {} baseline' comparison').toOption.map fun r =>
      (r.entries.map (·.line), r.count .better, r.count .worse)) = some ([1, 2], 1, 1) := by
    decide +kernel
  obtain ⟨r, hr, hrun⟩ := exists_ok_of_map hrun
  obtain ⟨s, hs, hrun'⟩ := exists_ok_of_map hrun'
  obtain ⟨t, ht, -, hentries, -, hbetter, -, -, hworse, -⟩ := hparts r s hr hs
  simp only [Prod.mk.injEq] at hrun hrun'
  rw [hrun.2.1, hrun'.2.1] at hbetter
  rw [hrun.2.2, hrun'.2.2] at hworse
  refine ⟨h, h', t, ht, hbetter, hworse, ?_⟩
  have hlines : t.entries.map (·.line) =
      r.entries.map (·.line) ++ (s.entries.map (·.line)).map (· + 2) := by
    rw [hentries, List.map_append, List.map_map, List.map_map]
    rfl
  rw [hlines, hrun.1, hrun'.1]
  rfl

end Comparison
end EvalDiff
