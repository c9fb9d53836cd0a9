import Mathlib.Data.List.FinRange
import EvalDiff.Proofs.Comparison.Renumbering
import EvalDiff.Proofs.Comparison.Summary

/-!
# Rows in another order

A row is compared without a look at the rows around it, and counting does not depend on the order.
So if the rows of both logs are permuted together, the entries are permuted with them and the
summary stays as it is, to the last bit: `reordered_summary_eq`.  The counts are compared through
the numbers they stand for, since sums of doubles cannot be rearranged in general.
-/

namespace EvalDiff

/-- The entry at a line. -/
def Report.entryAt? (r : Report) (line : Nat) : Option Report.Entry :=
  r.entries.find? (·.line == line)

namespace Comparison

open Report

/-- The rows of a log in another order, in which place `i` has the row from place `σ i`. -/
def reorder {n : Nat} (σ : Equiv.Perm (Fin n)) (rows : List String) (h : rows.length = n) :
    List String :=
  List.ofFn fun i => rows.get (Fin.cast h.symm (σ i))

variable {o : Options} {baseline comparison : List String} {r : Report} {n : Nat}

theorem length_reorder (σ : Equiv.Perm (Fin n)) {rows : List String} (h : rows.length = n) :
    (reorder σ rows h).length = n := List.length_ofFn

/-- The pair of rows at a place. -/
def pairAt (hb : baseline.length = n) (hc : comparison.length = n) (i : Fin n) : RowPair where
  line := i + 1
  baseline := baseline.get (Fin.cast hb.symm i)
  comparison := comparison.get (Fin.cast hc.symm i)

theorem pairs_eq_ofFn (hb : baseline.length = n) (hc : comparison.length = n) :
    pairs baseline comparison = List.ofFn (pairAt hb hc) := by
  have hlength : (pairs baseline comparison).length = n :=
    (length_pairs (hb.trans hc.symm)).trans hb
  refine List.ext_getElem (by rw [hlength, List.length_ofFn]) fun i hi hi' => ?_
  have hlt : i < n := by omega
  refine Option.some.inj ?_
  rw [← List.getElem?_eq_getElem hi, getElem?_pairs_eq_some_iff, List.getElem_ofFn]
  exact ⟨rfl, List.getElem?_eq_getElem _, List.getElem?_eq_getElem _⟩

theorem pairAt_reorder (σ : Equiv.Perm (Fin n)) (hb : baseline.length = n)
    (hc : comparison.length = n) (i : Fin n) :
    pairAt (length_reorder σ hb) (length_reorder σ hc) i =
      (pairAt hb hc (σ i)).renumber fun _ => i + 1 := by
  simp only [pairAt, reorder, RowPair.renumber, List.get_ofFn]
  rfl

theorem eq_of_line_eq {p q : RowPair} (hp : p ∈ pairs baseline comparison)
    (hq : q ∈ pairs baseline comparison) (h : p.line = q.line) : p = q := by
  obtain ⟨i, hi⟩ := List.mem_iff_getElem?.mp hp
  obtain ⟨j, hj⟩ := List.mem_iff_getElem?.mp hq
  have hline := (getElem?_pairs_eq_some_iff.mp hi).1
  have hline' := (getElem?_pairs_eq_some_iff.mp hj).1
  have hij : i = j := by omega
  subst hij
  exact Option.some.inj (hi.symm.trans hj)

theorem RowPair.line_of_yield? {p : RowPair} {e : Entry} (h : p.yield? o = some e) :
    e.line = p.line := by
  rw [yield?] at h
  cases hp : p.outcome o with
  | error f =>
    rw [hp] at h
    cases h
  | ok found =>
    rw [hp] at h
    exact (describes_of_outcome (hp.trans (congrArg Except.ok h))).2.line

theorem entryAt?_of_compare (h : compare o baseline comparison = .ok r) {p : RowPair}
    (hp : p ∈ pairs baseline comparison) : r.entryAt? p.line = p.yield? o := by
  obtain ⟨-, -, rfl⟩ := compare_eq_ok_iff.mp h
  rw [entryAt?]
  cases hfind : (Report.ofEntries o.marker ((pairs baseline comparison).filterMap
      (·.yield? o))).entries.find? (·.line == p.line) with
  | some e =>
    obtain ⟨q, hq, hqe⟩ := List.mem_filterMap.mp (List.mem_of_find?_eq_some hfind)
    have hline : e.line = p.line := by simpa using List.find?_some hfind
    have hpq := eq_of_line_eq hp hq (hline.symm.trans (RowPair.line_of_yield? hqe))
    rw [hpq, hqe]
  | none =>
    cases hpe : p.yield? o with
    | none => rfl
    | some e =>
      have hline := List.find?_eq_none.mp hfind e (List.mem_filterMap.mpr ⟨p, hp, hpe⟩)
      rw [RowPair.line_of_yield? hpe] at hline
      simp at hline

theorem entries_of_compare (hb : baseline.length = n) (hc : comparison.length = n)
    (h : compare o baseline comparison = .ok r) :
    r.entries = (List.finRange n).filterMap fun i => (pairAt hb hc i).yield? o := by
  obtain ⟨-, -, rfl⟩ := compare_eq_ok_iff.mp h
  show (pairs baseline comparison).filterMap _ = _
  rw [pairs_eq_ofFn hb hc, List.ofFn_eq_map, List.filterMap_map]
  rfl

theorem yield?_pairAt (hb : baseline.length = n) (hc : comparison.length = n)
    (h : compare o baseline comparison = .ok r) (i : Fin n) :
    (pairAt hb hc i).yield? o = r.entryAt? (i + 1) := by
  refine (entryAt?_of_compare h ?_).symm
  rw [pairs_eq_ofFn hb hc]
  exact List.mem_ofFn.mpr ⟨i, rfl⟩

theorem compare_reorder (hb : baseline.length = n) (hc : comparison.length = n)
    (σ : Equiv.Perm (Fin n)) (h : compare o baseline comparison = .ok r) :
    ∃ s, compare o (reorder σ baseline hb) (reorder σ comparison hc) = .ok s ∧
      s.entries = (List.finRange n).filterMap fun i =>
        (r.entryAt? (σ i + 1)).map (Entry.renumber fun _ => i + 1) := by
  obtain ⟨-, hall, -⟩ := compare_eq_ok_iff.mp h
  have hlength := (length_reorder σ hb).trans (length_reorder σ hc).symm
  have hall' : ∀ p ∈ pairs (reorder σ baseline hb) (reorder σ comparison hc),
      p.Acceptable o := by
    intro p hp
    rw [pairs_eq_ofFn (length_reorder σ hb) (length_reorder σ hc), List.mem_ofFn] at hp
    obtain ⟨i, rfl⟩ := hp
    rw [pairAt_reorder, RowPair.acceptable_renumber_iff]
    refine hall _ ?_
    rw [pairs_eq_ofFn hb hc]
    exact List.mem_ofFn.mpr ⟨σ i, rfl⟩
  have hs := compare_eq_ok_iff.mpr ⟨hlength, hall', rfl⟩
  refine ⟨_, hs, ?_⟩
  rw [entries_of_compare (length_reorder σ hb) (length_reorder σ hc) hs]
  refine List.filterMap_congr fun i _ => ?_
  rw [pairAt_reorder, RowPair.yield?_renumber, yield?_pairAt hb hc h]

/-- The entries are the same ones, the line numbers aside. -/
theorem perm_entries (hb : baseline.length = n) (hc : comparison.length = n)
    (σ : Equiv.Perm (Fin n)) (h : compare o baseline comparison = .ok r) {entries : List Entry}
    (hentries : entries = (List.finRange n).filterMap fun i =>
      (r.entryAt? (σ i + 1)).map (Entry.renumber fun _ => i + 1)) :
    (entries.map (Entry.renumber fun _ => 0)).Perm (r.entries.map (Entry.renumber fun _ => 0)) := by
  let unnumbered : Fin n → Option Entry := fun i =>
    (r.entryAt? (i + 1)).map (Entry.renumber fun _ => 0)
  have hnew : entries.map (Entry.renumber fun _ => 0) =
      ((List.finRange n).map σ).filterMap unnumbered := by
    rw [hentries, List.map_filterMap, List.filterMap_map]
    refine List.filterMap_congr fun i _ => ?_
    rw [Option.map_map]
    rfl
  have hold : r.entries.map (Entry.renumber fun _ => 0) =
      (List.finRange n).filterMap unnumbered := by
    rw [entries_of_compare hb hc h, List.map_filterMap]
    refine List.filterMap_congr fun i _ => ?_
    rw [yield?_pairAt hb hc h]
  rw [hnew, hold]
  exact σ.map_finRange_perm.filterMap unnumbered

theorem countP_eq_of_perm {es fs : List Entry}
    (h : (es.map (Entry.renumber fun _ => 0)).Perm (fs.map (Entry.renumber fun _ => 0)))
    (v : Verdict) : es.countP (·.verdict == v) = fs.countP (·.verdict == v) := by
  have hcount := h.countP_eq (·.verdict == v)
  rw [List.countP_map, List.countP_map] at hcount
  exact hcount

/-- Permuting the rows of both logs permutes the entries and keeps the summary. -/
theorem reordered_summary_eq (hb : baseline.length = n) (hc : comparison.length = n)
    (σ : Equiv.Perm (Fin n)) (h : compare o baseline comparison = .ok r) :
    ∃ s, compare o (reorder σ baseline hb) (reorder σ comparison hc) = .ok s ∧
      s.metric = r.metric ∧ s.summary = r.summary ∧ s.hasRegressions = r.hasRegressions ∧
      (s.entries = (List.finRange n).filterMap fun i =>
        (r.entryAt? (σ i + 1)).map (Entry.renumber fun _ => i + 1)) ∧
      (s.entries.map (Entry.renumber fun _ => 0)).Perm
        (r.entries.map (Entry.renumber fun _ => 0)) := by
  obtain ⟨s, hs, hentries⟩ := compare_reorder hb hc σ h
  have hperm := perm_entries hb hc σ h hentries
  have hcount := countP_eq_of_perm hperm
  obtain ⟨-, -, hr⟩ := compare_eq_ok_iff.mp h
  obtain ⟨-, -, hs'⟩ := compare_eq_ok_iff.mp hs
  refine ⟨s, hs, ?_, ?_, ?_, hentries, hperm⟩
  · rw [hr, hs']
    rfl
  · have hsummary : r.summary = (Tally.ofEntries r.entries).summary := by
      rw [hr]
      rfl
    have hsummary' : s.summary = (Tally.ofEntries s.entries).summary := by
      rw [hs']
      rfl
    rw [hsummary, hsummary', Tally.ofEntries_eq_of_countP hcount]
  · rw [Bool.eq_iff_iff, hasRegressions_iff, hasRegressions_iff, Report.count, Report.count, hcount]

/-- A gain on the first line and a loss on the last one change places. -/
theorem reordered_summary_eq_reversed :
    let baseline := ["map\tq1\t0.1", "num_q\tall\t2", "map\tq2\t0.3"]
    let comparison := ["map\tq1\t0.4", "num_q\tall\t2", "map\tq2\t0.1"]
    baseline.length = 3 ∧ comparison.length = 3 ∧
      ∃ r s gain loss, compare {} baseline comparison = .ok r ∧ r.entries = [gain, loss] ∧
        compare {} baseline.reverse comparison.reverse = .ok s ∧
        s.entries = [loss.renumber fun _ => 1, gain.renumber fun _ => 3] ∧
        s.summary = r.summary := by
  intro baseline comparison
  have hb : baseline.length = 3 := rfl
  have hc : comparison.length = 3 := rfl
  have hlines : ((compare {} baseline comparison).toOption.map fun r =>
      r.entries.map (·.line)) = some [1, 3] := by
    decide +kernel
  obtain ⟨r, hr, hlines⟩ := exists_ok_of_map hlines
  obtain ⟨s, hs, -, hsummary, -, hentries, -⟩ := reordered_summary_eq hb hc Fin.revPerm hr
  obtain ⟨gain, rest, hr_entries, hgain, hrest⟩ := List.map_eq_cons_iff.mp hlines
  obtain ⟨loss, rfl, hloss⟩ := List.map_eq_singleton_iff.mp hrest
  refine ⟨hb, hc, r, s, gain, loss, hr, hr_entries, hs, ?_, hsummary⟩
  have hat : ∀ line, r.entryAt? line = [gain, loss].find? (·.line == line) := by
    intro line
    rw [entryAt?, hr_entries]
  rw [hentries]
  simp [List.finRange_succ, hat, hgain, hloss]

end Comparison
end EvalDiff
