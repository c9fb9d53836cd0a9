import EvalDiff.Decimal.Digits
import EvalDiff.Decimal.Numeral
import Mathlib.Algebra.Group.Nat.Defs
import Mathlib.Data.List.DropRight
import Mathlib.Data.List.TakeWhile

/-!
# Digits as numbers

What the digits of a number stand for, with zeros in front, a point among them or zeros dropped from
their end.  A number with a point is its digits in two parts, `wholePart` and `fractionPart`, and
`pointed` is the text that the parts make.
-/

namespace EvalDiff
namespace Decimal

variable {c : Char} {cs ds es whole fraction : List Char} {places n width : Nat}

/-! ### Digits -/

theorem natOfDigits_digits (n : Nat) : natOfDigits (digits n) = n :=
  Nat.ofDigitChars_ten_toDigits

theorem natOfDigits_append (ds es : List Char) :
    natOfDigits (ds ++ es) = 10 ^ es.length * natOfDigits ds + natOfDigits es := by
  rw [natOfDigits, Nat.ofDigitChars_append, Nat.ofDigitChars_eq_ofDigitChars_zero]
  rfl

theorem natOfDigits_replicate_zero (n : Nat) : natOfDigits (List.replicate n '0') = 0 :=
  Nat.ofDigitChars_replicate_zero

theorem natOfDigits_lt (h : ∀ c ∈ ds, c.isDigit = true) : natOfDigits ds < 10 ^ ds.length := by
  induction ds with
  | nil => exact Nat.one_pos
  | cons d ds ih =>
    have hrest := ih fun c hc => h c (List.mem_cons_of_mem d hc)
    have hdigit : natOfDigits [d] ≤ 9 := by
      have hle := (Char.isDigit_iff_toNat.mp (h d List.mem_cons_self)).2
      show 10 * 0 + (d.toNat - '0'.toNat) ≤ 9
      rw [Nat.mul_zero, Nat.zero_add]
      exact Nat.sub_le_sub_right hle _
    have hcons : natOfDigits (d :: ds) = 10 ^ ds.length * natOfDigits [d] + natOfDigits ds :=
      natOfDigits_append [d] ds
    have hpow := Nat.mul_le_mul_left (10 ^ ds.length) hdigit
    rw [hcons, List.length_cons, Nat.pow_succ]
    omega

theorem isDigit_of_mem_digits (h : c ∈ digits n) : c.isDigit = true :=
  Nat.isDigit_of_mem_toDigits (by decide) (by decide) h

theorem isDigit_of_mem_replicate {k : Nat} (h : c ∈ List.replicate k '0') : c.isDigit = true := by
  rw [List.eq_of_mem_replicate h]
  rfl

/-- Only zero starts with one. -/
theorem head?_digits_ne_zero (h : 0 < n) : (digits n).head? ≠ some '0' := by
  induction n using Nat.strongRecOn with
  | ind n ih =>
    rcases Nat.lt_or_ge n 10 with hlt | hge
    · have hone : ∀ d < 10, 0 < d → Nat.digitChar d ≠ '0' := by decide
      rw [digits, Nat.toDigits_of_lt_base hlt, List.head?_cons]
      exact fun heq => hone n hlt h (Option.some.inj heq)
    · have hne : Nat.toDigits 10 (n / 10) ≠ [] := Nat.toDigits_ne_nil
      rw [digits, Nat.toDigits_of_base_le (by decide) hge, List.head?_append_of_ne_nil _ hne]
      exact ih (n / 10) (by omega) (by omega)

theorem digitCount_eq {count : Nat} (hcount : 1 < count) (hle : 10 ^ (count - 1) ≤ n)
    (hlt : n < 10 ^ count) : digitCount n = count := by
  have hupper : digitCount n ≤ count :=
    (Nat.length_toDigits_le_iff (by decide) (by omega)).mpr hlt
  have hlower : ¬ digitCount n ≤ count - 1 := fun h =>
    Nat.not_lt.mpr hle ((Nat.length_toDigits_le_iff (by decide) (by omega)).mp h)
  omega

theorem digits_mul_ten_pow (hn : 0 < n) (k : Nat) :
    digits (n * 10 ^ k) = digits n ++ List.replicate k '0' := by
  induction k with
  | zero => simp
  | succ k ih =>
    have hpos : 0 < n * 10 ^ k := Nat.mul_pos hn (Nat.pow_pos (by decide))
    have hmul : n * 10 ^ (k + 1) = n * 10 ^ k * 10 := by rw [Nat.pow_succ, Nat.mul_assoc]
    rw [hmul, digits, Nat.toDigits_of_base_le (by decide) (by omega),
      Nat.mul_div_cancel _ (by decide), Nat.mul_mod_left, List.replicate_succ',
      ← List.append_assoc, ← ih]
    rfl

/-! ### Zeros in front -/

theorem natOfDigits_paddedDigits (width n : Nat) : natOfDigits (paddedDigits width n) = n := by
  rw [paddedDigits, List.leftpad, natOfDigits_append, natOfDigits_replicate_zero,
    natOfDigits_digits, Nat.mul_zero, Nat.zero_add]

theorem isDigit_of_mem_paddedDigits (h : c ∈ paddedDigits width n) : c.isDigit = true := by
  rw [paddedDigits, List.leftpad] at h
  exact (List.mem_append.mp h).elim isDigit_of_mem_replicate isDigit_of_mem_digits

theorem le_length_paddedDigits (width n : Nat) : width ≤ (paddedDigits width n).length := by
  rw [paddedDigits, List.length_leftpad]
  exact Nat.le_max_left _ _

theorem paddedDigits_eq (width n : Nat) :
    paddedDigits width n = List.replicate (width - digitCount n) '0' ++ digits n := by
  rw [paddedDigits, List.leftpad]
  rfl

theorem length_paddedDigits (width n : Nat) :
    (paddedDigits width n).length = max width (digitCount n) := by
  rw [paddedDigits, List.length_leftpad]
  rfl

/-! ### Zeros at the end -/

theorem exists_dropTrailing (c : Char) (cs : List Char) :
    ∃ k, cs = dropTrailing c cs ++ List.replicate k c := by
  have hall : ∀ d ∈ cs.reverse.takeWhile (· == c), d = c := by
    intro d hd
    simpa using List.mem_takeWhile_imp hd
  refine ⟨(cs.reverse.takeWhile (· == c)).length, ?_⟩
  rw [dropTrailing, ← List.reverse_replicate, ← List.eq_replicate_of_mem hall,
    ← List.reverse_append, List.takeWhile_append_dropWhile, List.reverse_reverse]

theorem mem_of_mem_dropTrailing {d : Char} (h : c ∈ dropTrailing d cs) : c ∈ cs := by
  obtain ⟨k, hk⟩ := exists_dropTrailing d cs
  rw [hk]
  exact List.mem_append_left _ h

theorem length_dropTrailing_le (c : Char) (cs : List Char) :
    (dropTrailing c cs).length ≤ cs.length := by
  obtain ⟨k, hk⟩ := exists_dropTrailing c cs
  have hlength := congrArg List.length hk
  rw [List.length_append] at hlength
  omega

theorem getLast?_dropTrailing (c : Char) (cs : List Char) :
    (dropTrailing c cs).getLast? ≠ some c := by
  intro h
  rw [dropTrailing, List.getLast?_reverse] at h
  have hnot := List.head?_dropWhile_not (· == c) cs.reverse
  rw [h] at hnot
  simp at hnot

theorem dropTrailing_concat_self (c : Char) (cs : List Char) :
    dropTrailing c (cs ++ [c]) = dropTrailing c cs :=
  List.rdropWhile_concat_pos _ _ _ (beq_self_eq_true c)

theorem dropTrailing_concat_of_ne {d : Char} (h : d ≠ c) (cs : List Char) :
    dropTrailing c (cs ++ [d]) = cs ++ [d] :=
  List.rdropWhile_concat_neg _ _ _ (by simpa using h)

theorem dropTrailing_append_cons {d : Char} (h : d ≠ c) (cs ds : List Char) :
    dropTrailing c (cs ++ d :: ds) = cs ++ d :: dropTrailing c ds := by
  induction ds using List.reverseRecOn with
  | nil => exact dropTrailing_concat_of_ne h cs
  | append_singleton ds e ih =>
    rw [← List.cons_append, ← List.append_assoc]
    by_cases he : e = c
    · subst he
      rw [dropTrailing_concat_self, dropTrailing_concat_self, ih]
    · rw [dropTrailing_concat_of_ne he, dropTrailing_concat_of_ne he, List.append_assoc,
        List.cons_append]

theorem dropTrailing_append_of_forall_ne {d : Char} (hne : ds ≠ []) (h : ∀ c ∈ ds, c ≠ d)
    (cs : List Char) : dropTrailing d (cs ++ ds) = cs ++ ds := by
  rw [← List.dropLast_append_getLast hne, ← List.append_assoc]
  exact dropTrailing_concat_of_ne (h _ (List.getLast_mem hne)) _

/-! ### The point -/

/-- The digits before the point of `n / 10 ^ places`. -/
def wholePart (places n : Nat) : List Char :=
  (paddedDigits (places + 1) n).take ((paddedDigits (places + 1) n).length - places)

/-- The digits after the point of `n / 10 ^ places`. -/
def fractionPart (places n : Nat) : List Char :=
  (paddedDigits (places + 1) n).drop ((paddedDigits (places + 1) n).length - places)

/-- Digits with a point between them if there are some after it. -/
def pointed (whole fraction : List Char) : List Char :=
  if fraction = [] then whole else whole ++ '.' :: fraction

theorem wholePart_append_fractionPart (places n : Nat) :
    wholePart places n ++ fractionPart places n = paddedDigits (places + 1) n :=
  List.take_append_drop _ _

theorem isDigit_of_mem_wholePart (h : c ∈ wholePart places n) : c.isDigit = true :=
  isDigit_of_mem_paddedDigits (List.mem_of_mem_take h)

theorem isDigit_of_mem_fractionPart (h : c ∈ fractionPart places n) : c.isDigit = true :=
  isDigit_of_mem_paddedDigits (List.mem_of_mem_drop h)

theorem length_fractionPart (places n : Nat) : (fractionPart places n).length = places := by
  have hle := le_length_paddedDigits (places + 1) n
  rw [fractionPart, List.length_drop]
  omega

theorem wholePart_ne_nil (places n : Nat) : wholePart places n ≠ [] := by
  have hle := le_length_paddedDigits (places + 1) n
  apply List.ne_nil_of_length_pos
  rw [wholePart, List.length_take]
  omega

theorem length_wholePart (h : places < digitCount n) :
    (wholePart places n).length = digitCount n - places := by
  rw [wholePart, List.length_take, length_paddedDigits]
  omega

/-- A number with a digit before the point has no zero in front. -/
theorem head?_wholePart_ne (hn : 0 < n) (h : places < digitCount n) :
    (wholePart places n).head? ≠ some '0' := by
  have hpadded : paddedDigits (places + 1) n = digits n := by
    rw [paddedDigits_eq, Nat.sub_eq_zero_of_le h, List.replicate_zero, List.nil_append]
  have hlength : (digits n).length - places ≠ 0 := by
    show digitCount n - places ≠ 0
    omega
  rw [wholePart, hpadded, List.head?_take, if_neg hlength]
  exact head?_digits_ne_zero hn

/-- A number without one has a single zero there. -/
theorem wholePart_eq_zero (h : digitCount n ≤ places) : wholePart places n = ['0'] := by
  have hlength : max (places + 1) (digitCount n) - places = 1 := by omega
  have hzeros : places + 1 - digitCount n = places - digitCount n + 1 := by omega
  rw [wholePart, length_paddedDigits, hlength, paddedDigits_eq, hzeros, List.replicate_succ]
  rfl

/-- A whole number has zeros after the point. -/
theorem parts_mul_ten_pow (hn : 0 < n) (places : Nat) :
    wholePart places (n * 10 ^ places) = digits n ∧
      fractionPart places (n * 10 ^ places) = List.replicate places '0' := by
  have hdigits := digits_mul_ten_pow hn places
  have hcount : digitCount (n * 10 ^ places) = digitCount n + places := by
    rw [digitCount, hdigits, List.length_append, List.length_replicate]
    rfl
  have hpos : 0 < digitCount n := Nat.length_toDigits_pos
  have hpadded : paddedDigits (places + 1) (n * 10 ^ places) =
      digits n ++ List.replicate places '0' := by
    rw [paddedDigits_eq, hcount, Nat.sub_eq_zero_of_le (by omega), List.replicate_zero,
      List.nil_append, hdigits]
  have hwhole : (digits n ++ List.replicate places '0').length - places = (digits n).length := by
    rw [List.length_append, List.length_replicate, Nat.add_sub_cancel]
  rw [wholePart, fractionPart, hpadded, hwhole]
  exact ⟨List.take_left, List.drop_left⟩

theorem withPoint_eq (places n : Nat) :
    withPoint places n = pointed (wholePart places n) (fractionPart places n) := by
  have hlength := length_fractionPart places n
  rw [withPoint, pointed]
  by_cases h : places = 0
  · subst h
    have hnil := List.eq_nil_of_length_eq_zero hlength
    rw [if_pos rfl, if_pos hnil, ← wholePart_append_fractionPart, hnil, List.append_nil]
  · have hne : fractionPart places n ≠ [] := by
      intro hnil
      rw [hnil] at hlength
      exact h hlength.symm
    rw [if_neg h, if_neg hne]
    rfl

theorem ne_point_of_isDigit (h : c.isDigit = true) : c ≠ '.' := by
  rintro rfl
  cases h

theorem mem_pointed (h : c ∈ pointed whole fraction) : c ∈ whole ∨ c = '.' ∨ c ∈ fraction := by
  rw [pointed] at h
  split at h
  · exact .inl h
  · simpa using h

theorem contains_point_pointed_iff (hwhole : ∀ c ∈ whole, c.isDigit = true) :
    (pointed whole fraction).contains '.' = true ↔ fraction ≠ [] := by
  rw [List.contains_iff_mem, pointed]
  split
  case isTrue hnil =>
    have hnot : '.' ∉ whole := fun h => ne_point_of_isDigit (hwhole _ h) rfl
    simp [hnil, hnot]
  case isFalse hne => simp [hne]

/-- Of the digits after the point the zeros at the end are dropped. -/
theorem dropTrailingZeros_pointed (hne : whole ≠ []) (hwhole : ∀ c ∈ whole, c.isDigit = true)
    (hfraction : ∀ c ∈ fraction, c.isDigit = true) :
    dropTrailingZeros (pointed whole fraction) = pointed whole (dropTrailing '0' fraction) := by
  have hwhole' : ∀ c ∈ whole, c ≠ '.' := fun c hc => ne_point_of_isDigit (hwhole c hc)
  rw [dropTrailingZeros]
  by_cases hnil : fraction = []
  · subst hnil
    rw [if_neg (mt (contains_point_pointed_iff hwhole).mp (not_not_intro rfl))]
    rfl
  · have hzeros : dropTrailing '0' (pointed whole fraction) =
        whole ++ '.' :: dropTrailing '0' fraction := by
      rw [pointed, if_neg hnil, dropTrailing_append_cons (by decide)]
    rw [if_pos ((contains_point_pointed_iff hwhole).mpr hnil), hzeros, pointed]
    by_cases hnone : dropTrailing '0' fraction = []
    · rw [if_pos hnone, hnone, dropTrailing_concat_self]
      exact dropTrailing_append_of_forall_ne hne hwhole' []
    · have hdropped : ∀ c ∈ dropTrailing '0' fraction, c ≠ '.' := fun c hc =>
        ne_point_of_isDigit (hfraction c (mem_of_mem_dropTrailing hc))
      rw [if_neg hnone, List.append_cons]
      exact dropTrailing_append_of_forall_ne hnone hdropped _

end Decimal
end EvalDiff
