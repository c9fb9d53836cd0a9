import EvalDiff.Proofs.Decimal.Digits
import EvalDiff.Proofs.Json.Numbers
import EvalDiff.Proofs.Json.Scaling

/-!
# Doubles read back from their decimals

A number in JSON is its digits and a power of ten.  The numbers written for doubles have at most
18 digits, so all of them are read, and stand for the shortest decimal of the double in each of the
three ways to write it.
-/

namespace EvalDiff
namespace Json

open Decimal Binary64

variable {ds : List Char} {n : Nat}

/-! ### Digits -/

theorem isDigits_digits (n : Nat) : IsDigits (digits n) :=
  ⟨Nat.toDigits_ne_nil, fun _ hc => isDigit_of_mem_digits hc⟩

theorem isDigits_zero : IsDigits ['0'] := isDigits_digits 0

theorem isDigits_append {es : List Char} (h : IsDigits ds) (h' : ∀ c ∈ es, c.isDigit = true) :
    IsDigits (ds ++ es) := by
  refine ⟨fun hnil => h.1 (List.append_eq_nil_iff.mp hnil).1, fun c hc => ?_⟩
  exact (List.mem_append.mp hc).elim (h.2 c) (h' c)

/-! ### What a number stands for -/

/-- All digits before the exponent, read as one number. -/
def Number.coefficient (n : Number) : Nat := natOfDigits (n.whole ++ n.fraction.getD [])

def Number.shift (n : Number) : Int :=
  match n.exponent with
  | none => 0
  | some (negative, ds) => if negative then -(natOfDigits ds : Int) else natOfDigits ds

/-- The power of ten that the coefficient is multiplied by. -/
def Number.scale (n : Number) : Int := n.shift - (n.fraction.getD []).length

theorem le_ofDigitChars (ds : List Char) (init : Nat) : init ≤ Nat.ofDigitChars 10 ds init := by
  rw [Nat.ofDigitChars_eq_ofDigitChars_zero]
  exact Nat.le_add_right_of_le (Nat.le_mul_of_pos_left _ (Nat.pow_pos (by decide)))

theorem appendDigits_eq {init : Nat} (h : Nat.ofDigitChars 10 ds init < 0x10000000000000000) :
    appendDigits init ds = (Nat.ofDigitChars 10 ds init, 0) := by
  induction ds generalizing init with
  | nil => rfl
  | cons d ds ih =>
    rw [Nat.ofDigitChars_cons, Nat.mul_comm] at h ⊢
    have hlt := Nat.lt_of_le_of_lt (le_ofDigitChars ds _) h
    rw [appendDigits, if_pos hlt, ih h]

/-- No digits are dropped if the coefficient has 64 bits. -/
theorem Number.toBinary64?_eq {n : Number} (h : n.coefficient < 0x10000000000000000) :
    n.toBinary64? =
      (scaleByTen (.ofNat n.coefficient) n.scale).map fun x => if n.negative then -x else x := by
  rw [coefficient, natOfDigits, Nat.ofDigitChars_append] at h
  have hwhole := appendDigits_eq (Nat.lt_of_le_of_lt (le_ofDigitChars _ _) h)
  have hfraction := appendDigits_eq h
  simp only [toBinary64?, hwhole, hfraction]
  rw [coefficient, natOfDigits, Nat.ofDigitChars_append, scale]
  have hshift : ∀ k : Nat, n.shift + (0 : Nat) - ((k - 0 : Nat) : Int) = n.shift - k := by
    intro k
    omega
  rw [← hshift]
  rfl

/-! ### The three ways to write a decimal -/

theorem isDigits_take {k : Nat} (h : IsDigits ds) (hk : 0 < k) : IsDigits (ds.take k) := by
  refine ⟨fun hnil => ?_, fun c hc => h.2 c (List.mem_of_mem_take hc)⟩
  rcases List.take_eq_nil_iff.mp hnil with h0 | hnil
  · omega
  · exact h.1 hnil

theorem head?_take {k : Nat} (hk : 0 < k) : (ds.take k).head? = ds.head? := by
  rw [List.head?_take, if_neg (Nat.ne_of_gt hk)]

theorem isDigits_rightpad_one (h : ∀ c ∈ ds, c.isDigit = true) :
    IsDigits (ds.rightpad 1 '0') := by
  cases ds with
  | nil => exact isDigits_zero
  | cons d ds => exact isDigits_append ⟨List.cons_ne_nil d ds, h⟩ fun _ => isDigit_of_mem_replicate

theorem ofDigits_proper (h : IsDigits ds) (hlead : ds.head? ≠ some '0') (negative : Bool)
    (point : Int) : (Number.ofDigits negative ds point).Proper := by
  rw [Number.ofDigits]
  split
  case isTrue hpoint =>
    have htake := isDigits_take h (by omega : 0 < point.toNat)
    refine ⟨isDigits_append htake fun _ => isDigit_of_mem_replicate, fun hzero => ?_, ?_, ?_⟩
    · rw [List.rightpad, List.head?_append_of_ne_nil _ htake.1, head?_take (by omega)] at hzero
      exact absurd hzero hlead
    · rintro _ ⟨⟩
      exact isDigits_rightpad_one fun c hc => h.2 c (List.mem_of_mem_drop hc)
    · rintro _ ⟨⟩
  case isFalse =>
    split
    case isTrue hpoint =>
      refine ⟨isDigits_zero, fun _ => rfl, ?_, ?_⟩
      · rintro _ ⟨⟩
        refine ⟨fun hnil => h.1 (List.append_eq_nil_iff.mp hnil).2, fun c hc => ?_⟩
        exact (List.mem_append.mp hc).elim isDigit_of_mem_replicate (h.2 c)
      · rintro _ ⟨⟩
    case isFalse =>
      have htake := isDigits_take h Nat.one_pos
      refine ⟨htake, fun hzero => ?_, ?_, ?_⟩
      · rw [head?_take Nat.one_pos] at hzero
        exact absurd hzero hlead
      · intro es hes
        dsimp only at hes
        split at hes
        case isTrue => cases hes
        case isFalse hlength =>
          cases hes
          refine ⟨fun hnil => ?_, fun c hc => h.2 c (List.mem_of_mem_drop hc)⟩
          have hle := List.drop_eq_nil_iff.mp hnil
          have hpos := List.length_pos_iff.mpr h.1
          omega
      · rintro _ ⟨⟩
        exact isDigits_digits _

/-- The digits are all there is, but for zeros up to the point and one after it. -/
theorem ofDigits_decimal (h : IsDigits ds) (negative : Bool) (point : Int) :
    let n := Number.ofDigits negative ds point
    n.coefficient = natOfDigits ds ∧ n.scale = point - ds.length ∨
      ds.length ≤ point ∧ point ≤ 16 ∧
        n.coefficient = 10 ^ ((point - ds.length).toNat + 1) * natOfDigits ds ∧ n.scale = -1 := by
  have hpos := List.length_pos_iff.mpr h.1
  intro n
  simp only [n, Number.ofDigits]
  split
  case isTrue hpoint =>
    rcases Nat.lt_or_ge point.toNat ds.length with hlt | hge
    · left
      have hwhole : (ds.take point.toNat).rightpad point.toNat '0' = ds.take point.toNat := by
        rw [List.rightpad, List.length_take, Nat.min_eq_left (Nat.le_of_lt hlt), Nat.sub_self,
          List.replicate_zero, List.append_nil]
      have hfraction : (ds.drop point.toNat).rightpad 1 '0' = ds.drop point.toNat := by
        rw [List.rightpad, List.length_drop, Nat.sub_eq_zero_of_le (by omega), List.replicate_zero,
          List.append_nil]
      rw [hwhole, hfraction]
      refine ⟨congrArg natOfDigits (List.take_append_drop _ _), ?_⟩
      simp only [Number.scale, Number.shift, Option.getD_some, List.length_drop]
      omega
    · right
      have hwhole : (ds.take point.toNat).rightpad point.toNat '0' =
          ds ++ List.replicate (point.toNat - ds.length) '0' := by
        rw [List.take_of_length_le hge, List.rightpad]
      have hfraction : (ds.drop point.toNat).rightpad 1 '0' = ['0'] := by
        rw [List.drop_of_length_le hge]
        rfl
      rw [hwhole, hfraction]
      refine ⟨by omega, hpoint.2, ?_, rfl⟩
      rw [Number.coefficient, Option.getD_some, List.append_assoc, ← List.replicate_succ',
        natOfDigits_append, natOfDigits_replicate_zero, List.length_replicate, Nat.add_zero,
        show (point - ds.length).toNat = point.toNat - ds.length by omega]
  case isFalse =>
    left
    split
    case isTrue hpoint =>
      constructor
      · have hzeros : ['0'] ++ (List.replicate (-point).toNat '0' ++ ds) =
            List.replicate ((-point).toNat + 1) '0' ++ ds := by
          rw [List.replicate_succ]
          rfl
        rw [Number.coefficient, Option.getD_some, hzeros, natOfDigits_append,
          natOfDigits_replicate_zero, Nat.mul_zero, Nat.zero_add]
      · simp only [Number.scale, Number.shift, Option.getD_some, List.length_append,
          List.length_replicate]
        omega
    case isFalse =>
      have hfraction : (if ds.length = 1 then none else some (ds.drop 1)).getD [] = ds.drop 1 := by
        split
        case isTrue hone => rw [Option.getD_none, List.drop_of_length_le (Nat.le_of_eq hone)]
        case isFalse => rfl
      constructor
      · rw [Number.coefficient, hfraction]
        exact congrArg natOfDigits (List.take_append_drop 1 ds)
      · simp only [Number.scale, Number.shift, hfraction, List.length_drop, natOfDigits_digits]
        -- The sign and the digits of the exponent make the exponent.
        have hshift : (if decide (point - 1 < 0) = true then -((point - 1).natAbs : Int)
            else ((point - 1).natAbs : Int)) = point - 1 := by
          split
          case isTrue hneg =>
            have := of_decide_eq_true hneg
            omega
          case isFalse hneg =>
            have := of_decide_eq_false (eq_false_of_ne_true hneg)
            omega
        rw [hshift]
        omega

/-! ### Doubles -/

variable {rank : Nat}

theorem ofRank_of_pos {places : Int} (h : 0 < rank) (hshort : shortest rank = (n, places))
    (negative : Bool) :
    Number.ofRank negative rank =
      Number.ofDigits negative (digits n) ((digits n).length - places) := by
  rw [Number.ofRank, if_neg (Nat.ne_of_gt h), hshort]
  rfl

theorem ofRank_proper (negative : Bool) (rank : Nat) : (Number.ofRank negative rank).Proper := by
  rcases Nat.eq_zero_or_pos rank with rfl | hpos
  · refine ⟨isDigits_zero, fun _ => rfl, ?_, ?_⟩
    · rintro _ ⟨⟩
      exact isDigits_zero
    · rintro _ ⟨⟩
  · obtain ⟨-, hn, -, -⟩ := shortest_spec hpos rfl
    rw [ofRank_of_pos hpos rfl]
    exact ofDigits_proper (isDigits_digits _) (head?_digits_ne_zero hn) negative _

/-- The number written for a positive double is rounded to it, and is in the reach of the reader. -/
theorem ofRank_decimal (hpos : 0 < rank) (htop : rank < topRank) (negative : Bool) :
    let n := Number.ofRank negative rank
    Rounds rank (decimalUnits n.coefficient (-n.scale)) ∧ 0 < n.coefficient ∧
      n.coefficient ≤ 10 ^ 18 ∧ -324 ≤ n.scale ∧ n.scale ≤ 308 := by
  intro n
  obtain ⟨m, places, hshort⟩ : ∃ m places, shortest rank = (m, places) := ⟨_, _, rfl⟩
  obtain ⟨hrounds, hm, hle, hplaces⟩ := shortest_spec hpos hshort
  have hge := neg_308_le_places htop hm hrounds
  have hdecimal := ofDigits_decimal (isDigits_digits m) negative ((digits m).length - places)
  rw [← ofRank_of_pos hpos hshort negative, natOfDigits_digits] at hdecimal
  rcases hdecimal with ⟨hcoefficient, hscale⟩ | ⟨hlow, hhigh, hcoefficient, hscale⟩
  · have hscale' : n.scale = -places := by
      rw [hscale]
      omega
    rw [hcoefficient, hscale', neg_neg]
    exact ⟨hrounds, hm, hle.trans (by decide), by omega, by omega⟩
  · obtain ⟨j, hj⟩ : ∃ j : Nat, places = -j := ⟨places.natAbs, by omega⟩
    have hzeros : (((digits m).length : Int) - places - (digits m).length).toNat + 1 = j + 1 := by
      omega
    have hdigits : m < 10 ^ (digits m).length := (digitCount_bounds hm).2
    rw [hzeros] at hcoefficient
    rw [hcoefficient, hscale, neg_neg, decimalUnits_mul_pow,
      show (1 : Int) - (j + 1 : Nat) = places by omega]
    refine ⟨hrounds, Nat.mul_pos (Nat.pow_pos (by decide)) hm, ?_, by decide, by decide⟩
    calc 10 ^ (j + 1) * m ≤ 10 ^ (j + 1) * 10 ^ (digits m).length :=
          Nat.mul_le_mul_left _ (Nat.le_of_lt hdigits)
      _ = 10 ^ (j + 1 + (digits m).length) := (Nat.pow_add ..).symm
      _ ≤ 10 ^ 18 := Nat.pow_le_pow_right (by decide) (by omega)

/-- The digits and the power of ten are doubles, so that only one rounding is left. -/
def Number.Exact (n : Number) : Prop := n.coefficient ≤ 2 ^ 53 ∧ n.scale.natAbs ≤ 22

/-- The two doubles before infinity are the only ones that a reading two places above would not
be finite for, and the last one is read for both. -/
theorem toBinary64?_ofRank_last : ∀ negative, ∀ i < 2,
    (Number.ofRank negative (topRank - 1 - i)).toBinary64? =
      some (.ofRank negative (topRank - 1)) := by
  decide +kernel

/-- Zero is read from its own digit. -/
theorem toBinary64?_ofRank_zero : ∀ negative,
    (Number.ofRank negative 0).toBinary64? = some (.ofRank negative 0) := by
  decide +kernel

theorem ofRank_negative (negative : Bool) (rank : Nat) :
    (Number.ofRank negative rank).negative = negative := by
  simp only [Number.ofRank, Number.ofDigits]
  split
  · rfl
  · split
    · rfl
    · split <;> rfl

/-- A finite double is read back with its sign and at most two places away. -/
theorem toBinary64?_ofRank (negative : Bool) (htop : rank < topRank) :
    ∃ r, r < topRank ∧
      (Number.ofRank negative rank).toBinary64? = some (.ofRank negative r) ∧ Near r rank ∧
      ((Number.ofRank negative rank).Exact → r = rank) := by
  rcases Nat.eq_zero_or_pos rank with rfl | hpos
  · exact ⟨0, htop, toBinary64?_ofRank_zero negative, ⟨by decide, by decide⟩, fun _ => rfl⟩
  obtain ⟨hrounds, hcoefficient, hle, hscale, hscale'⟩ := ofRank_decimal hpos htop negative
  obtain ⟨r, hnear, hexact, hread⟩ := scaleByTen_near hcoefficient hle hscale hscale' hrounds
  rcases Nat.lt_or_ge r topRank with hr | hr
  · refine ⟨r, hr, ?_, hnear, fun h => hexact h.1 h.2⟩
    rw [Number.toBinary64?_eq (Nat.lt_of_le_of_lt hle (by decide)), hread hr, ofRank_negative]
    cases negative <;> rfl
  · -- Nothing finite is two places above, so the double is one of the last two.
    obtain ⟨i, hi, hrank⟩ : ∃ i < 2, rank = topRank - 1 - i := by
      have hle := hnear.1
      exact ⟨topRank - 1 - rank, by omega, by omega⟩
    refine ⟨topRank - 1, by decide, ?_, ⟨by omega, by omega⟩, fun h => ?_⟩
    · rw [hrank]
      exact toBinary64?_ofRank_last negative i hi
    · have := hexact h.1 h.2
      omega

/-- Two places away does occur: this is 9.270652296817293e-231. -/
example : (Number.ofRank false 0x102cc924586ac6e7).toBinary64? =
    some (.ofRank false 0x102cc924586ac6e5) := by decide +kernel

end Json
end EvalDiff
