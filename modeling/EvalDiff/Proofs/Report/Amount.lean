import EvalDiff.Proofs.Binary64.Significant
import EvalDiff.Proofs.Decimal.Literal
import EvalDiff.Report.Amount

/-!
# What an amount stands for

The text of an amount is a numeral whose value is the double rounded to twelve significant digits:
`amount_significant`.  The digits are rounded once for the exponent and, without one, a second time
for the text, with the same result.
-/

namespace EvalDiff
namespace Report

open Decimal Binary64

variable {rank n places : Nat} {e : Int}

theorem spellsSign_signText (negative : Bool) : SpellsSign negative (signText negative) := by
  cases negative with
  | false => exact .none
  | true => exact .minus

theorem spellsExponent_exponentText (e : Int) : SpellsExponent e (exponentText e) := by
  have hne : paddedDigits 2 e.natAbs ≠ [] := by
    apply List.ne_nil_of_length_pos
    exact Nat.lt_of_lt_of_le Nat.two_pos (le_length_paddedDigits 2 e.natAbs)
  have hdigits : ∀ c ∈ paddedDigits 2 e.natAbs, c.isDigit = true :=
    fun _ => isDigit_of_mem_paddedDigits
  rw [exponentText]
  by_cases hneg : e < 0
  · have hspells := SpellsExponent.letter (.inl rfl) .minus hne hdigits
    have hvalue : -(e.natAbs : Int) = e := by omega
    rw [natOfDigits_paddedDigits, if_pos rfl, hvalue] at hspells
    rw [if_pos hneg]
    exact hspells
  · have hspells := SpellsExponent.letter (.inl rfl) .plus hne hdigits
    have hvalue : (e.natAbs : Int) = e := by omega
    rw [natOfDigits_paddedDigits, if_neg Bool.false_ne_true, hvalue] at hspells
    rw [if_neg hneg]
    exact hspells

theorem magnitudeText_eq (h : significant amountDigits rank = (n, e)) :
    magnitudeText rank =
      if e < -4 ∨ 12 ≤ e then
        dropTrailingZeros (withPoint 11 n) ++ exponentText e
      else
        let places := (11 - e).toNat
        let fixed := dropTrailingZeros (withPoint places (roundedAt places rank))
        if fixed.contains '.' then fixed else fixed ++ ['.', '0'] := by
  -- The definition is opened as a function: at `rank` its `match` would start to be computed.
  obtain ⟨f, hf⟩ : ∃ f, f = magnitudeText := ⟨_, rfl⟩
  rw [← hf]
  delta magnitudeText at hf
  rw [hf]
  beta_reduce
  rw [h]
  rfl

theorem dropTrailingZeros_withPoint (places n : Nat) :
    dropTrailingZeros (withPoint places n) =
      pointed (wholePart places n) (dropTrailing '0' (fractionPart places n)) := by
  rw [withPoint_eq]
  exact dropTrailingZeros_pointed (wholePart_ne_nil places n)
    (fun _ => isDigit_of_mem_wholePart) (fun _ => isDigit_of_mem_fractionPart)

theorem magnitudeText_of_scientific (h : significant amountDigits rank = (n, e))
    (he : e < -4 ∨ 12 ≤ e) :
    magnitudeText rank =
      pointed (wholePart 11 n) (dropTrailing '0' (fractionPart 11 n)) ++ exponentText e := by
  rw [magnitudeText_eq h, if_pos he, dropTrailingZeros_withPoint]

/-- The second rounding, at the place that the first one tells, gives the digits of the first. -/
theorem roundedAt_fixed (hrank : 0 < rank) (h : significant amountDigits rank = (n, e))
    (he : e < 12) : roundedAt (11 - e).toNat rank = n := by
  have hplaces : (((11 - e).toNat : Nat) : Int) = (amountDigits : Nat) - 1 - e := by
    show _ = (12 : Int) - 1 - e
    omega
  rw [hplaces]
  exact roundedAt_significant hrank (by decide) h

theorem magnitudeText_of_fixed (hrank : 0 < rank) (h : significant amountDigits rank = (n, e))
    (he : ¬ (e < -4 ∨ 12 ≤ e)) :
    magnitudeText rank =
      pointed (wholePart (11 - e).toNat n)
        ((dropTrailing '0' (fractionPart (11 - e).toNat n)).rightpad 1 '0') := by
  rw [magnitudeText_eq h, if_neg he]
  dsimp only
  rw [roundedAt_fixed hrank h (by omega), dropTrailingZeros_withPoint]
  split
  case isTrue hpoint =>
    have hne := (contains_point_pointed_iff fun _ => isDigit_of_mem_wholePart).mp hpoint
    have hlength := List.length_pos_iff.mpr hne
    rw [List.rightpad, Nat.sub_eq_zero_of_le hlength, List.replicate_zero, List.append_nil]
  case isFalse hpoint =>
    have hnil := not_not.mp
      (mt (contains_point_pointed_iff fun _ => isDigit_of_mem_wholePart).mpr hpoint)
    rw [hnil]
    rfl

/-- The text is made of the digits and the exponent alone. -/
theorem magnitudeText_eq_of_significant (hrank : 0 < rank) {other : Nat} (hother : 0 < other)
    (h : significant amountDigits rank = (n, e)) (h' : significant amountDigits other = (n, e)) :
    magnitudeText other = magnitudeText rank := by
  by_cases he : e < -4 ∨ 12 ≤ e
  · rw [magnitudeText_of_scientific h he, magnitudeText_of_scientific h' he]
  · rw [magnitudeText_of_fixed hrank h he, magnitudeText_of_fixed hother h' he]

theorem isDigit_of_mem_rightpad {c : Char}
    (h : c ∈ (dropTrailing '0' (fractionPart places n)).rightpad 1 '0') : c.isDigit = true := by
  rw [List.rightpad] at h
  rcases List.mem_append.mp h with h | h
  · exact isDigit_of_mem_fractionPart (mem_of_mem_dropTrailing h)
  · exact isDigit_of_mem_replicate h

theorem numeral?_magnitudeText (hrank : 0 < rank) (h : significant amountDigits rank = (n, e))
    (negative : Bool) :
    ∃ numeral, numeral? (signText negative ++ magnitudeText rank) = some numeral ∧
      numeral.negative = negative ∧ numeral.magnitude = n * 10 ^ (e - 11) ∧
      numeral.exponent = if e < -4 ∨ 12 ≤ e then e else 0 := by
  have hsign := spellsSign_signText negative
  by_cases he : e < -4 ∨ 12 ≤ e
  · have hfraction : ∀ c ∈ dropTrailing '0' (fractionPart 11 n), c.isDigit = true :=
      fun _ hc => isDigit_of_mem_fractionPart (mem_of_mem_dropTrailing hc)
    have hdigits := spellsDigits_pointed (wholePart_ne_nil 11 n)
      (fun _ => isDigit_of_mem_wholePart) hfraction
    rw [magnitudeText_of_scientific h he]
    refine ⟨_, (Spells.parts hsign hdigits (spellsExponent_exponentText e)).numeral?_eq, rfl, ?_,
      (if_pos he).symm⟩
    rw [Numeral.magnitude_dropTrailing, Numeral.magnitude_parts]
    rfl
  · have hfraction : ∀ c ∈ (dropTrailing '0' (fractionPart (11 - e).toNat n)).rightpad 1 '0',
        c.isDigit = true := fun _ => isDigit_of_mem_rightpad
    have hdigits := spellsDigits_pointed (wholePart_ne_nil (11 - e).toNat n)
      (fun _ => isDigit_of_mem_wholePart) hfraction
    rw [magnitudeText_of_fixed hrank h he, ← List.append_nil (pointed _ _)]
    refine ⟨_, (Spells.parts hsign hdigits .none).numeral?_eq, rfl, ?_, (if_neg he).symm⟩
    have hplaces : (0 : Int) - (11 - e).toNat = e - 11 := by omega
    rw [List.rightpad, Numeral.magnitude_append_zeros, Numeral.magnitude_dropTrailing,
      Numeral.magnitude_parts, hplaces]

/-- The letter of an exponent stands in scientific amounts only. -/
theorem mem_magnitudeText_iff (hrank : 0 < rank) (h : significant amountDigits rank = (n, e)) :
    'e' ∈ magnitudeText rank ↔ e < -4 ∨ 12 ≤ e := by
  by_cases he : e < -4 ∨ 12 ≤ e
  · rw [magnitudeText_of_scientific h he, exponentText]
    simp [he]
  · rw [magnitudeText_of_fixed hrank h he]
    refine iff_of_false (fun hmem => ?_) he
    rcases mem_pointed hmem with hmem | hmem | hmem
    · cases isDigit_of_mem_wholePart hmem
    · cases hmem
    · cases isDigit_of_mem_rightpad hmem

theorem toList_amount (negative : Bool) (hrank : 0 < rank) (htop : rank < topRank) :
    (amount (.number negative rank (Nat.le_of_lt htop))).toList =
      signText negative ++ magnitudeText rank := by
  rw [amount, if_neg (Nat.ne_of_lt htop), if_neg (Nat.ne_of_gt hrank), String.toList_ofList]

theorem toFixed_number (negative : Bool) (htop : rank < topRank) (places : Nat) :
    toFixed places (.number negative rank (Nat.le_of_lt htop)) =
      String.ofList (signText negative ++ withPoint places (roundedAt places rank)) := by
  rw [toFixed, if_neg (Nat.ne_of_lt htop)]

/-- The text of an amount stands for the double rounded to twelve significant digits, half to even.
It is scientific if the first digit of the rounded value is below the fourth place after the point
or above the twelfth before it, and otherwise the places up to the twelfth digit have the same
digits, `n`, when they are written out. -/
theorem amount_significant (negative : Bool) (hrank : 0 < rank) (htop : rank < topRank) :
    let x := number negative rank (Nat.le_of_lt htop)
    ∃ (numeral : Numeral) (n : Nat) (e : Int),
      numeral? (amount x).toList = some numeral ∧
      IsSignificantRounding 12 x.toRat numeral.value ∧
      Int.log 10 |numeral.value| = e ∧
      ('e' ∈ (amount x).toList ↔ e < -4 ∨ 12 ≤ e) ∧
      (numeral.exponent = if e < -4 ∨ 12 ≤ e then e else 0) ∧
      significant 12 rank = (n, e) ∧ 10 ^ 11 ≤ n ∧ n < 10 ^ 12 ∧
      |numeral.value| = n * 10 ^ (e - 11) ∧
      (-4 ≤ e → e < 12 → toFixed (11 - e).toNat x =
        String.ofList (signText negative ++ withPoint (11 - e).toNat n)) := by
  intro x
  obtain ⟨⟨n, e⟩, h⟩ : ∃ d, significant amountDigits rank = d := ⟨_, rfl⟩
  obtain ⟨numeral, hread, hsign, hmagnitude, hexponent⟩ := numeral?_magnitudeText hrank h negative
  obtain ⟨hle, hlt⟩ := significant_bounds hrank (by decide) h
  have hrounding := significant_isRounding hrank (by decide) h
  have hlog := log_digits (e := e) hle hlt (by decide)
  have hvalue : numeral.value =
      if negative then -(n * 10 ^ (e - 11) : ℚ) else n * 10 ^ (e - 11) := by
    rw [Numeral.value, hsign, hmagnitude]
  have habs : |numeral.value| = n * 10 ^ (e - 11) := by
    have hnonneg : (0 : ℚ) ≤ n * 10 ^ (e - 11) :=
      mul_nonneg (Nat.cast_nonneg n) (ten_zpow_pos (e - 11)).le
    rw [hvalue]
    split
    · rw [abs_neg, abs_of_nonneg hnonneg]
    · exact abs_of_nonneg hnonneg
  refine ⟨numeral, n, e, ?_, ?_, ?_, ?_, hexponent, h, hle, hlt, habs, ?_⟩
  · rw [toList_amount negative hrank htop]
    exact hread
  · rw [toRat_number, hvalue]
    cases negative with
    | false => exact hrounding
    | true => exact hrounding.neg
  · rw [habs]
    exact hlog
  · rw [toList_amount negative hrank htop, List.mem_append, ← mem_magnitudeText_iff hrank h]
    refine or_iff_right ?_
    cases negative with
    | false => exact List.not_mem_nil
    | true => decide
  · intro hge hlt
    rw [toFixed_number negative htop, roundedAt_fixed hrank h hlt]

/-- The largest double below one is rounded to one, which has eleven places and not twelve. -/
theorem amount_significant_carry :
    0 < 0x3fefffffffffffff ∧ ∃ htop : 0x3fefffffffffffff < topRank,
      let x := number false 0x3fefffffffffffff (Nat.le_of_lt htop)
      amount x = "1.0" ∧ IsSignificantRounding 12 x.toRat 1 ∧ toFixed 11 x = "1.00000000000" := by
  have hrank : 0 < 0x3fefffffffffffff := by decide
  have htop : 0x3fefffffffffffff < topRank := by decide
  have htext : amount (number false 0x3fefffffffffffff (by decide)) = "1.0" := by decide +kernel
  have hdigits : significant 12 0x3fefffffffffffff = (10 ^ 11, 0) := by decide +kernel
  obtain ⟨numeral, n, e, hread, hrounding, -, -, -, h, -, -, -, hfixed⟩ :=
    amount_significant false hrank htop
  obtain ⟨rfl, rfl⟩ := Prod.mk.inj (hdigits.symm.trans h)
  have hnumeral : numeral? "1.0".toList = some ⟨false, ['1'], ['0'], 0⟩ := by decide +kernel
  rw [htext, hnumeral] at hread
  cases hread
  have hvalue : Numeral.value ⟨false, ['1'], ['0'], 0⟩ = 1 := by
    have hcoefficient : natOfDigits ['1', '0'] = 10 := by decide
    norm_num [Numeral.value, Numeral.magnitude, Numeral.coefficient, Numeral.scale, hcoefficient]
  rw [hvalue] at hrounding
  refine ⟨hrank, htop, htext, hrounding, (hfixed (by decide) (by decide)).trans ?_⟩
  decide +kernel

end Report
end EvalDiff
