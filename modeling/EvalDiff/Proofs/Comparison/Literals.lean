import EvalDiff.Proofs.Binary64.Reading
import EvalDiff.Proofs.Comparison.Delta

/-!
# Verdicts on written numbers

A verdict is taken from two doubles, each the rounding of the number that is written in a row.
Reading keeps the order of literals, so the verdict may miss a difference that rounding has removed
and never turns one around.
-/

namespace EvalDiff

open Decimal

variable {x y : Numeral} {cs ds : List Char}

theorem Verdict.ofValues_ne_worse (hx : Spells x cs) (hy : Spells y ds) (h : x.value ≤ y.value) :
    ofValues (.ofNumeral x) (.ofNumeral y) ≠ .worse := by
  rw [ne_eq, ofValues_eq_worse_iff, Binary64.ofNumeral_lt_eq_false hx.isDigit hy.isDigit h]
  exact Bool.false_ne_true

theorem Verdict.ofValues_ne_better (hx : Spells x cs) (hy : Spells y ds) (h : y.value ≤ x.value) :
    ofValues (.ofNumeral x) (.ofNumeral y) ≠ .better := by
  rw [ne_eq, ofValues_eq_better_iff, Binary64.ofNumeral_lt_eq_false hy.isDigit hx.isDigit h]
  exact Bool.false_ne_true

theorem Verdict.eq_unchanged_of_ne {v : Verdict} (hworse : v ≠ .worse) (hbetter : v ≠ .better) :
    v = .unchanged := by
  cases v with
  | better => exact absurd rfl hbetter
  | worse => exact absurd rfl hworse
  | unchanged => rfl

namespace Comparison

open Log Report

variable {o : Options} {baseline comparison : List String} {r : Report} {p : RowPair} {e : Entry}

/-- The entry of two literals has the verdict on the doubles that the literals are read as. -/
theorem RowPair.Describes.verdict_of_spells (h : p.Describes e)
    (hx : Spells x (valueToken p.baseline).toList)
    (hy : Spells y (valueToken p.comparison).toList) :
    e.verdict = Verdict.ofValues (.ofNumeral x) (.ofNumeral y) := by
  have hbaseline := h.baseline
  have hcomparison := h.comparison
  rw [Binary64.ofToken_of_spells hx, Except.ok.injEq] at hbaseline
  rw [Binary64.ofToken_of_spells hy, Except.ok.injEq] at hcomparison
  rw [h.verdict, hbaseline, hcomparison]

/-- No verdict contradicts the numbers that are written in the two rows, however many digits they
have and however large their exponents are.  Equal numbers are unchanged in every spelling. -/
theorem verdict_respects_literals (h : compare o baseline comparison = .ok r) :
    ∀ e ∈ r.entries, ∃ p ∈ pairs baseline comparison, p.Describes e ∧
      ∀ x y : Numeral, Spells x (valueToken p.baseline).toList →
        Spells y (valueToken p.comparison).toList →
          (x.value ≤ y.value → e.verdict ≠ .worse) ∧
          (y.value ≤ x.value → e.verdict ≠ .better) ∧
          (x.value = y.value → e.verdict = .unchanged) := by
  intro e he
  obtain ⟨p, hp, -, -, hd⟩ := exists_describes_of_mem h he
  refine ⟨p, hp, hd, fun x y hx hy => ?_⟩
  rw [hd.verdict_of_spells hx hy]
  have hworse := Verdict.ofValues_ne_worse hx hy
  have hbetter := Verdict.ofValues_ne_better hx hy
  exact ⟨hworse, hbetter, fun heq =>
    Verdict.eq_unchanged_of_ne (hworse heq.le) (hbetter heq.ge)⟩

/-- Three tenths, written without an exponent and with one. -/
theorem verdict_respects_literals_respelled :
    let p : RowPair := ⟨1, "map\tq1\t0.30", "map\tq1\t+3E-1 "⟩
    let x : Numeral := ⟨false, ['0'], ['3', '0'], 0⟩
    let y : Numeral := ⟨false, ['3'], [], -1⟩
    ∃ r e, compare {} [p.baseline] [p.comparison] = .ok r ∧ r.entries = [e] ∧
      Spells x (valueToken p.baseline).toList ∧ Spells y (valueToken p.comparison).toList ∧
      x.value = y.value ∧ e.verdict = .unchanged := by
  intro p x y
  have hx : Spells x (valueToken p.baseline).toList := numeral?_eq_some_iff.mp (by decide +kernel)
  have hy : Spells y (valueToken p.comparison).toList :=
    numeral?_eq_some_iff.mp (by decide +kernel)
  have hvalue : x.value = y.value := by
    have hthirty : natOfDigits ['0', '3', '0'] = 30 := by decide
    have hthree : natOfDigits ['3'] = 3 := by decide
    norm_num [x, y, Numeral.value, Numeral.magnitude, Numeral.coefficient, Numeral.scale, hthirty,
      hthree]
  have hrun : (compare {} [p.baseline] [p.comparison]).toOption.map (·.entries.length) =
      some 1 := by
    decide +kernel
  obtain ⟨r, hr, hlength⟩ := exists_ok_of_map hrun
  obtain ⟨e, hentries⟩ := List.length_eq_one_iff.mp hlength
  have he : e ∈ r.entries := by simp [hentries]
  obtain ⟨p', hp', -, hverdict⟩ := verdict_respects_literals hr e he
  obtain rfl : p' = p := List.mem_singleton.mp hp'
  exact ⟨r, e, hr, hentries, hx, hy, hvalue, (hverdict x y hx hy).2.2 hvalue⟩

end Comparison
end EvalDiff
