import EvalDiff.Proofs.Binary64.Overflow
import EvalDiff.Proofs.Report.Amount

/-!
# The canonical form of amounts

An amount has one text for each sign and each twelve digits, with no digit in it that could be left
out.  The text therefore tells two finite doubles apart exactly if their sign bits or their first
twelve digits do: `amount_eq_iff_same_rounding`.
-/

namespace EvalDiff

/-- The sign bit of a number. -/
def Binary64.isNegative : Binary64 → Bool
  | .nan => false
  | .number negative _ _ => negative

namespace Decimal

variable {cs ds : List Char} {k : Nat}

/-! ### Significant digits -/

/-- Digits without the zeros in front of them. -/
def dropLeadingZeros (ds : List Char) : List Char := ds.dropWhile (· == '0')

theorem length_dropLeadingZeros_le (h : cs <+: List.replicate k '0' ++ ds) :
    (dropLeadingZeros cs).length ≤ ds.length := by
  obtain ⟨rest, hrest⟩ := h
  have hzeros : dropLeadingZeros (cs ++ rest) = dropLeadingZeros ds := by
    rw [hrest, dropLeadingZeros, List.dropWhile_append_of_pos (by simp)]
    rfl
  have hle : (dropLeadingZeros ds).length ≤ ds.length := List.length_dropWhile_le _ _
  have hfront : (dropLeadingZeros cs).length ≤ (dropLeadingZeros (cs ++ rest)).length := by
    rw [dropLeadingZeros, dropLeadingZeros, List.dropWhile_append]
    split
    · next hempty => simp [List.isEmpty_iff.mp hempty]
    · simp
  rw [hzeros] at hfront
  exact Nat.le_trans hfront hle

/-- The significant digits of a number that is written with a point.  A fraction that is a zero
alone has none. -/
def significantDigits (whole fraction : List Char) : List Char :=
  dropLeadingZeros (whole ++ if fraction = ['0'] then [] else fraction)

theorem rightpad_one_of_ne_nil (h : ds ≠ []) : ds.rightpad 1 '0' = ds := by
  have hlength := List.length_pos_iff.mpr h
  rw [List.rightpad, Nat.sub_eq_zero_of_le hlength, List.replicate_zero, List.append_nil]

/-- Digits that do not end in a zero are told from the zero that stands for none. -/
theorem rightpad_one_cases (h : ds.getLast? ≠ some '0') :
    (if ds.rightpad 1 '0' = ['0'] then [] else ds.rightpad 1 '0') = ds := by
  by_cases hnil : ds = []
  · subst hnil
    rfl
  · rw [rightpad_one_of_ne_nil hnil, if_neg]
    rintro rfl
    exact h rfl

theorem length_significantDigits_le (places n : Nat) :
    (significantDigits (wholePart places n)
      ((dropTrailing '0' (fractionPart places n)).rightpad 1 '0')).length ≤ digitCount n := by
  obtain ⟨k, hk⟩ := exists_dropTrailing '0' (fractionPart places n)
  rw [significantDigits, rightpad_one_cases (getLast?_dropTrailing _ _)]
  apply length_dropLeadingZeros_le
  rw [← paddedDigits_eq (places + 1), ← wholePart_append_fractionPart]
  refine ⟨List.replicate k '0', ?_⟩
  rw [List.append_assoc, ← hk]

end Decimal

namespace Report

open Decimal Binary64

variable {rank other n places : Nat} {e : Int} {r : ℚ} {x y : Binary64} {negative : Bool}

/-! ### The form -/

/-- The canonical text of an amount without its sign.  A zero stands alone in front of a point, and
alone or not at all at the end of a fraction. -/
inductive CanonicalMagnitude : List Char → Prop where
  | fixed {whole fraction : List Char} (hne : whole ≠ [])
    (hwhole : ∀ c ∈ whole, c.isDigit = true) (hlead : whole.head? = some '0' → whole = ['0'])
    (hne' : fraction ≠ []) (hfraction : ∀ c ∈ fraction, c.isDigit = true)
    (hlast : fraction.getLast? = some '0' → fraction = ['0'])
    (hcount : (significantDigits whole fraction).length ≤ 12) :
    CanonicalMagnitude (whole ++ '.' :: fraction)
  | scientific {first sign : Char} {fraction exponent : List Char} (hfirst : first.isDigit = true)
    (hlead : first ≠ '0') (hfraction : ∀ c ∈ fraction, c.isDigit = true)
    (hlast : fraction.getLast? ≠ some '0') (hcount : (first :: fraction).length ≤ 12)
    (hsign : sign = '+' ∨ sign = '-') (hexponent : ∀ c ∈ exponent, c.isDigit = true)
    (hlength : 2 ≤ exponent.length) :
    CanonicalMagnitude (pointed [first] fraction ++ 'e' :: sign :: exponent)

/-- The canonical text of an amount, with a minus or without a sign. -/
def IsCanonical (text : String) : Prop :=
  ∃ negative magnitude, text.toList = signText negative ++ magnitude ∧
    CanonicalMagnitude magnitude

theorem canonicalMagnitude_zero : CanonicalMagnitude ['0', '.', '0'] := by
  have hfixed : CanonicalMagnitude (['0'] ++ '.' :: ['0']) :=
    .fixed (by decide) (by simp) (fun _ => rfl) (by decide) (by simp) (fun _ => rfl)
      (by decide)
  exact hfixed

theorem canonicalMagnitude_fixed (hn : 0 < n) (hcount : digitCount n ≤ 12) (places : Nat) :
    CanonicalMagnitude (pointed (wholePart places n)
      ((dropTrailing '0' (fractionPart places n)).rightpad 1 '0')) := by
  have hne : (dropTrailing '0' (fractionPart places n)).rightpad 1 '0' ≠ [] := by
    apply List.ne_nil_of_length_pos
    rw [List.length_rightpad]
    omega
  rw [pointed, if_neg hne]
  refine .fixed (wholePart_ne_nil places n) (fun _ => isDigit_of_mem_wholePart) (fun hhead => ?_)
    hne (fun _ => isDigit_of_mem_rightpad) (fun hzero => ?_)
    (Nat.le_trans (length_significantDigits_le places n) hcount)
  · refine wholePart_eq_zero (Nat.le_of_not_lt fun hlt => ?_)
    exact head?_wholePart_ne hn hlt hhead
  · by_cases hnil : dropTrailing '0' (fractionPart places n) = []
    · rw [hnil]
      rfl
    · rw [rightpad_one_of_ne_nil hnil] at hzero
      exact absurd hzero (getLast?_dropTrailing _ _)

theorem canonicalMagnitude_scientific (hn : 0 < n) (hcount : digitCount n = 12) (e : Int) :
    CanonicalMagnitude
      (pointed (wholePart 11 n) (dropTrailing '0' (fractionPart 11 n)) ++ exponentText e) := by
  have hlt : 11 < digitCount n := by omega
  have hlength : (wholePart 11 n).length = 1 := by rw [length_wholePart hlt, hcount]
  obtain ⟨first, hfirst⟩ := List.length_eq_one_iff.mp hlength
  have hdigit : ∀ c ∈ wholePart 11 n, c.isDigit = true := fun _ => isDigit_of_mem_wholePart
  have hlead := head?_wholePart_ne hn hlt
  have hle := length_dropTrailing_le '0' (fractionPart 11 n)
  rw [length_fractionPart] at hle
  rw [hfirst] at hdigit hlead ⊢
  refine .scientific (hdigit first (by simp)) (by simpa using hlead)
    (fun _ hc => isDigit_of_mem_fractionPart (mem_of_mem_dropTrailing hc))
    (getLast?_dropTrailing _ _) ?_ ?_ (fun _ => isDigit_of_mem_paddedDigits)
    (le_length_paddedDigits 2 e.natAbs)
  · rw [List.length_cons]
    omega
  · by_cases he : e < 0
    · exact .inr (if_pos he)
    · exact .inl (if_neg he)

theorem canonicalMagnitude_magnitudeText (hrank : 0 < rank) :
    CanonicalMagnitude (magnitudeText rank) := by
  obtain ⟨⟨n, e⟩, h⟩ : ∃ d, significant amountDigits rank = d := ⟨_, rfl⟩
  obtain ⟨hle, hlt⟩ := significant_bounds hrank (by decide) h
  have hcount : digitCount n = 12 := digitCount_eq (by decide) hle hlt
  have hn : 0 < n := Nat.lt_of_lt_of_le (by decide) hle
  by_cases he : e < -4 ∨ 12 ≤ e
  · rw [magnitudeText_of_scientific h he]
    exact canonicalMagnitude_scientific hn hcount e
  · rw [magnitudeText_of_fixed hrank h he]
    exact canonicalMagnitude_fixed hn (Nat.le_of_eq hcount) _

theorem toList_amount_zero (negative : Bool) :
    (amount (.number negative 0 (Nat.zero_le _))).toList =
      signText negative ++ ['0', '.', '0'] := by
  rw [amount, if_neg (by decide), if_pos rfl, String.toList_ofList]

theorem isCanonical_amount (hfinite : x.isFinite = true) : IsCanonical (amount x) := by
  cases x with
  | nan => cases hfinite
  | number negative rank hle =>
    have htop : rank < topRank := of_decide_eq_true hfinite
    rcases Nat.eq_zero_or_pos rank with rfl | hrank
    · exact ⟨negative, _, toList_amount_zero negative, canonicalMagnitude_zero⟩
    · exact ⟨negative, _, toList_amount negative hrank htop,
        canonicalMagnitude_magnitudeText hrank⟩

/-! ### What the text tells -/

theorem rankValue_zero : rankValue 0 = 0 := by
  rw [rankValue, units_zero, Nat.cast_zero, zero_div]

/-- The text of a finite amount is read as its sign and its rounding. -/
theorem exists_numeral_amount (hfinite : x.isFinite = true) :
    ∃ numeral, numeral? (amount x).toList = some numeral ∧ numeral.negative = x.isNegative ∧
      IsSignificantRounding 12 x.toRat numeral.value := by
  cases x with
  | nan => cases hfinite
  | number negative rank hle =>
    have htop : rank < topRank := of_decide_eq_true hfinite
    rcases Nat.eq_zero_or_pos rank with rfl | hrank
    · have hzero : Numeral.value ⟨negative, ['0'], ['0'], 0⟩ = 0 := by
        have hcoefficient : natOfDigits ['0', '0'] = 0 := by decide
        simp [Numeral.value, Numeral.magnitude, Numeral.coefficient, hcoefficient]
      refine ⟨⟨negative, ['0'], ['0'], 0⟩, ?_, rfl, ?_⟩
      · rw [toList_amount_zero]
        cases negative <;> decide +kernel
      · rw [isSignificantRounding_toRat_iff, hzero, neg_zero, ite_self, rankValue_zero]
        exact isSignificantRounding_of_mul 0 (by simp)
    · obtain ⟨⟨n, e⟩, h⟩ : ∃ d, significant amountDigits rank = d := ⟨_, rfl⟩
      obtain ⟨numeral, hread, hsign, hmagnitude, -⟩ := numeral?_magnitudeText hrank h negative
      refine ⟨numeral, ?_, hsign, ?_⟩
      · rw [toList_amount negative hrank htop]
        exact hread
      · have hrounding := significant_isRounding hrank (by decide) h
        rw [isSignificantRounding_toRat_iff, Numeral.value, hsign, hmagnitude]
        cases negative with
        | false => exact hrounding
        | true =>
          rw [if_pos rfl, if_pos rfl, neg_neg]
          exact hrounding

/-! ### Equal texts -/

theorem eq_digits_of_rounding (hrank : 0 < rank) (h : significant amountDigits rank = (n, e))
    (hr : IsSignificantRounding 12 (rankValue rank) r) : r = n * 10 ^ (e - 11) :=
  hr.unique (significant_isRounding hrank (by decide) h)

theorem pos_of_rounding (hrank : 0 < rank) (hr : IsSignificantRounding 12 (rankValue rank) r) :
    0 < r := by
  obtain ⟨⟨n, e⟩, h⟩ : ∃ d, significant amountDigits rank = d := ⟨_, rfl⟩
  have hn : 0 < n := Nat.lt_of_lt_of_le (by decide) (significant_bounds hrank (by decide) h).1
  rw [eq_digits_of_rounding hrank h hr]
  exact mul_pos (by exact_mod_cast hn) (ten_zpow_pos _)

/-- Roundings to the same number have the same digits in the same places. -/
theorem significant_eq_of_rounding (hrank : 0 < rank) (hother : 0 < other)
    (hr : IsSignificantRounding 12 (rankValue rank) r)
    (hr' : IsSignificantRounding 12 (rankValue other) r) :
    significant amountDigits rank = significant amountDigits other := by
  obtain ⟨⟨n, e⟩, h⟩ : ∃ d, significant amountDigits rank = d := ⟨_, rfl⟩
  obtain ⟨⟨m, f⟩, h'⟩ : ∃ d, significant amountDigits other = d := ⟨_, rfl⟩
  obtain ⟨hle, hlt⟩ := significant_bounds hrank (by decide) h
  obtain ⟨hle', hlt'⟩ := significant_bounds hother (by decide) h'
  have hn := eq_digits_of_rounding hrank h hr
  have hm := eq_digits_of_rounding hother h' hr'
  have he : e = f := by
    rw [← log_digits (e := e) hle hlt (by decide), ← log_digits (e := f) hle' hlt' (by decide)]
    exact congrArg (Int.log 10) (hn.symm.trans hm)
  subst he
  have hcast : (n : ℚ) = m := mul_right_cancel₀ (ten_zpow_pos (e - 11)).ne' (hn.symm.trans hm)
  rw [h, h', Nat.cast_inj.mp hcast]

theorem amount_eq_of_rounding (hx : x.isFinite = true) (hy : y.isFinite = true)
    (hsign : x.isNegative = y.isNegative) (hr : IsSignificantRounding 12 x.toRat r)
    (hr' : IsSignificantRounding 12 y.toRat r) : amount x = amount y := by
  cases x with
  | nan => cases hx
  | number negative a ha =>
    cases y with
    | nan => cases hy
    | number negative' b hb =>
      obtain rfl : negative = negative' := hsign
      have htop : a < topRank := of_decide_eq_true hx
      have htop' : b < topRank := of_decide_eq_true hy
      rw [isSignificantRounding_toRat_iff] at hr hr'
      generalize (if negative = true then -r else r) = q at hr hr'
      have hzero : ∀ q, IsSignificantRounding 12 (rankValue 0) q → q = 0 := by
        intro q hq
        rw [rankValue_zero] at hq
        exact hq.unique (isSignificantRounding_of_mul 0 (by simp))
      rcases Nat.eq_zero_or_pos a with rfl | hapos
      · rcases Nat.eq_zero_or_pos b with rfl | hbpos
        · rfl
        · exact absurd (hzero q hr) (pos_of_rounding hbpos hr').ne'
      · rcases Nat.eq_zero_or_pos b with rfl | hbpos
        · exact absurd (hzero q hr') (pos_of_rounding hapos hr).ne'
        · obtain ⟨⟨n, e⟩, h⟩ : ∃ d, significant amountDigits a = d := ⟨_, rfl⟩
          have h' := (significant_eq_of_rounding hapos hbpos hr hr').symm.trans h
          rw [← String.toList_inj, toList_amount negative hapos htop,
            toList_amount negative hbpos htop', magnitudeText_eq_of_significant hbpos hapos h' h]

/-! ### Whole amounts -/

/-- A whole number of at most twelve digits is written with all of them and a zero after the
point. -/
theorem magnitudeText_of_natCast (hrank : 0 < rank) (hn : rankValue rank = n)
    (hlt : n < 10 ^ 12) : magnitudeText rank = digits n ++ ['.', '0'] := by
  obtain ⟨⟨m, e⟩, h⟩ : ∃ d, significant amountDigits rank = d := ⟨_, rfl⟩
  obtain ⟨hle, hlt'⟩ := significant_bounds hrank (by decide) h
  have hpos : 0 < n := by
    have := rankValue_pos hrank
    rw [hn] at this
    exact_mod_cast this
  have hrounding : IsSignificantRounding 12 (rankValue rank) n := by
    rw [hn]
    exact isSignificantRounding_natCast hlt
  have hvalue := eq_digits_of_rounding hrank h hrounding
  have hlog : Int.log 10 (n : ℚ) = e := by
    have hdigits := log_digits (e := e) hle hlt' (by decide)
    have hplace : e - ((amountDigits : Nat) - 1) = e - 11 := rfl
    rwa [hplace, ← hvalue] at hdigits
  have hone : (1 : ℚ) ≤ n := by exact_mod_cast hpos
  have hlow : 0 ≤ e := by
    rw [← hlog, ← Int.zpow_le_iff_le_log (by decide) (by linarith), zpow_zero]
    exact hone
  have hhigh : e < 12 := by
    rw [← hlog, ← Int.lt_zpow_iff_log_lt (by decide) (by linarith)]
    exact_mod_cast hlt
  obtain ⟨k, hk⟩ : ∃ k : Nat, 11 - e = k := ⟨(11 - e).toNat, by omega⟩
  have hm : m = n * 10 ^ k := by
    have hinv : (10 : ℚ) ^ (e - 11) = (10 ^ k)⁻¹ := by
      rw [← neg_sub, hk, zpow_neg, zpow_natCast]
    have hcast : (m : ℚ) = n * 10 ^ k := by
      rw [hvalue, hinv, inv_mul_cancel_right₀ (by positivity)]
    exact_mod_cast hcast
  obtain ⟨hwhole, hfraction⟩ := parts_mul_ten_pow hpos k
  have hzeros : dropTrailing '0' (List.replicate k '0') = [] := by simp [dropTrailing]
  rw [magnitudeText_of_fixed hrank h (by omega), hk, Int.toNat_natCast, hm, hwhole, hfraction,
    hzeros]
  rfl

theorem amount_of_intCast {k : ℤ} (hfinite : x.isFinite = true) (hk : x.toRat = k)
    (hlt : |k| < 10 ^ 12) :
    (amount x).toList = signText x.isNegative ++ digits k.natAbs ++ ['.', '0'] := by
  cases x with
  | nan => cases hfinite
  | number negative rank hle =>
    have htop : rank < topRank := of_decide_eq_true hfinite
    have habs : rankValue rank = k.natAbs := by
      rw [Nat.cast_natAbs, Int.cast_abs, ← hk, abs_toRat_number]
    rcases Nat.eq_zero_or_pos rank with rfl | hrank
    · have hzero : k.natAbs = 0 := by
        rw [rankValue_zero] at habs
        exact_mod_cast habs.symm
      have hdigits : digits 0 = ['0'] := by decide
      rw [toList_amount_zero, hzero, hdigits, List.append_assoc]
      rfl
    · have hlt' : k.natAbs < 10 ^ 12 := by
        rw [← Int.natCast_natAbs] at hlt
        exact_mod_cast hlt
      rw [toList_amount negative hrank htop, magnitudeText_of_natCast hrank habs hlt',
        List.append_assoc]
      rfl

/-- Two finite amounts have the same text exactly if they have the same sign bit and the same
rounding to twelve significant digits, of which each has one.  The text is canonical, and whole
numbers below a million millions end in `.0`. -/
theorem amount_eq_iff_same_rounding (hx : x.isFinite = true) (hy : y.isFinite = true) :
    (amount x = amount y ↔
        x.isNegative = y.isNegative ∧
          ∃ r, IsSignificantRounding 12 x.toRat r ∧ IsSignificantRounding 12 y.toRat r) ∧
      (∃! r, IsSignificantRounding 12 x.toRat r) ∧
      IsCanonical (amount x) ∧
      ∀ k : ℤ, x.toRat = k → |k| < 10 ^ 12 →
        (amount x).toList = signText x.isNegative ++ digits k.natAbs ++ ['.', '0'] := by
  obtain ⟨numeral, hread, hsign, hrounding⟩ := exists_numeral_amount hx
  obtain ⟨numeral', hread', hsign', hrounding'⟩ := exists_numeral_amount hy
  refine ⟨⟨fun h => ?_, ?_⟩, ⟨_, hrounding, fun r hr => hr.unique hrounding⟩,
    isCanonical_amount hx, fun k => amount_of_intCast hx⟩
  · rw [h, hread'] at hread
    obtain rfl := Option.some.inj hread
    exact ⟨hsign.symm.trans hsign', _, hrounding, hrounding'⟩
  · rintro ⟨hnegative, r, hr, hr'⟩
    exact amount_eq_of_rounding hx hy hnegative hr hr'

/-- Neighbours share their first twelve digits, and are one number in them. -/
theorem amount_eq_iff_same_rounding_neighbours :
    let x := number true 0x3fd3333333333333 (by decide)
    let y := number true 0x3fd3333333333334 (by decide)
    x.isFinite = true ∧ y.isFinite = true ∧ x ≠ y ∧ amount x = "-0.3" ∧
      ∃ r, IsSignificantRounding 12 x.toRat r ∧ IsSignificantRounding 12 y.toRat r := by
  intro x y
  have hx : x.isFinite = true := by decide
  have hy : y.isFinite = true := by decide
  have htext : amount x = "-0.3" := by decide +kernel
  have htext' : amount y = "-0.3" := by decide +kernel
  obtain ⟨-, hr⟩ := (amount_eq_iff_same_rounding hx hy).1.mp (htext.trans htext'.symm)
  exact ⟨hx, hy, by decide, htext, hr⟩

end Report
end EvalDiff
