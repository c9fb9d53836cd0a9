import EvalDiff.Proofs.Lists
import EvalDiff.Proofs.Report.Table

/-!
# The percentages of the summary table

The sign of a percentage comes from two places.  A plus is put in front of a delta that is at least
zero, and the number behind it brings a minus of its own.  A hundred times a double has the sign bit
of the double, even where it overflows, so the two make one sign everywhere but at negative zero,
which is at least zero and has a minus: `percentage_signed_iff`.
-/

namespace EvalDiff

namespace Binary64

variable {negative : Bool} {rank : Nat}

theorem roundedAt_zero (places : Int) : roundedAt places 0 = 0 := by
  have hden : 0 < unitsPerOne * Nat.pow 10 (-places).toNat :=
    Nat.mul_pos unitsPerOne_pos (Nat.pow_pos (by decide))
  have hround := Decimal.roundHalfEven_mul 0 hden
  rw [Nat.zero_mul] at hround
  rw [roundedAt, units_zero, Nat.zero_mul, hround]

theorem neg_zero_eq : -zero = number true 0 (Nat.zero_le topRank) := rfl

/-- Of the numbers only negative zero has a sign bit that its order with zero does not tell. -/
theorem sign_of_ne_neg_zero {hle : rank ≤ topRank} (hne : number negative rank hle ≠ -zero) :
    (number negative rank hle).lt zero = negative ∧
      (zero.le (number negative rank hle) = true ↔ negative = false) := by
  cases negative with
  | false => simp [lt, le, zero, ofRank, signedRank]
  | true =>
    have hrank : rank ≠ 0 := by
      rintro rfl
      exact hne rfl
    simp [lt, le, zero, ofRank, signedRank, hrank, Nat.pos_of_ne_zero hrank]

end Binary64

namespace Report

open Binary64 Decimal Text

variable {rank : Nat} {c : Char} {text : List Char}

def signChar (negative : Bool) : Char := if negative then '-' else '+'

/-- A number with one digit behind its point, or `inf`, and a percent sign. -/
inductive UnsignedPercentage : List Char → Prop where
  | decimal {whole : List Char} {tenth : Char} (hne : whole ≠ [])
    (hwhole : ∀ c ∈ whole, c.isDigit = true) (htenth : tenth.isDigit = true) :
    UnsignedPercentage (whole ++ ['.', tenth, '%'])
  | infinite : UnsignedPercentage ['i', 'n', 'f', '%']

/-- One sign and a percentage without a sign. -/
def SignedPercentage (negative : Bool) (text : String) : Prop :=
  ∃ unsigned, UnsignedPercentage unsigned ∧ text.toList = signChar negative :: unsigned

theorem UnsignedPercentage.mem (h : UnsignedPercentage text) (hc : c ∈ text) :
    c.isDigit = true ∨ c ∈ ['.', 'i', 'n', 'f', '%'] := by
  cases h with
  | decimal hne hwhole htenth =>
    rcases List.mem_append.mp hc with hc | hc
    · exact .inl (hwhole c hc)
    · simp only [List.mem_cons, List.not_mem_nil, or_false] at hc
      rcases hc with rfl | rfl | rfl
      · exact .inr (by decide)
      · exact .inl htenth
      · exact .inr (by decide)
  | infinite =>
    have hword : ['i', 'n', 'f', '%'] ⊆ ['.', 'i', 'n', 'f', '%'] := List.subset_cons_self _ _
    exact .inr (hword hc)

theorem UnsignedPercentage.not_mem (h : UnsignedPercentage text)
    (hc : ¬ (c.isDigit = true ∨ c ∈ ['.', 'i', 'n', 'f', '%'])) : c ∉ text :=
  mt h.mem hc

theorem unsignedPercentage_withPoint (n : Nat) : UnsignedPercentage (withPoint 1 n ++ ['%']) := by
  obtain ⟨tenth, htenth⟩ := List.length_eq_one_iff.mp (length_fractionPart 1 n)
  have hdigit : tenth.isDigit = true := by
    have hmem : tenth ∈ fractionPart 1 n := by
      rw [htenth]
      exact List.mem_singleton_self tenth
    exact isDigit_of_mem_fractionPart hmem
  rw [withPoint_eq, htenth, pointed, if_neg (List.cons_ne_nil tenth []), List.append_assoc]
  exact .decimal (wholePart_ne_nil 1 n) (fun _ => isDigit_of_mem_wholePart) hdigit

/-- The number brings the sign of its sign bit and nothing else in front of it. -/
theorem exists_toFixed_one (negative : Bool) (hle : rank ≤ topRank) :
    ∃ unsigned, UnsignedPercentage unsigned ∧
      (toFixed 1 (number negative rank hle) ++ "%").toList = signText negative ++ unsigned := by
  rw [String.toList_append, toFixed]
  split
  · refine ⟨_, .infinite, ?_⟩
    rw [String.toList_ofList, List.append_assoc]
    rfl
  · refine ⟨_, unsignedPercentage_withPoint (roundedAt 1 rank), ?_⟩
    rw [String.toList_ofList, List.append_assoc]
    rfl

theorem percent_nan : percent .nan = "NaN%" := rfl

theorem isNat_hundred : IsNat (ofNat 100) 100 := isNat_ofNat (by decide)

theorem percent_neg_zero : percent (-zero) = "+-0.0%" := by
  obtain ⟨product, hproduct, hmul, hzero⟩ :=
    isNat_hundred.exists_mul_eq (by decide) true (Nat.zero_le topRank)
  cases hzero rfl
  have hfixed : toFixed 1 (number true 0 hproduct) = "-0.0" := by
    rw [toFixed, if_neg (by decide), roundedAt_zero]
    rfl
  rw [percent, neg_zero_eq, hmul, hfixed]
  rfl

/-- Any other number has one sign in front of its percentage, a minus if it is below zero. -/
theorem signedPercentage_percent {delta : Binary64} (hnumber : delta.isNaN = false)
    (hne : delta ≠ -zero) : SignedPercentage (delta.lt zero) (percent delta) := by
  cases delta with
  | nan => cases hnumber
  | number negative rank hle =>
    obtain ⟨product, hproduct, hmul, -⟩ := isNat_hundred.exists_mul_eq (by decide) negative hle
    obtain ⟨unsigned, hunsigned, htext⟩ := exists_toFixed_one negative hproduct
    obtain ⟨hlt, hplus⟩ := sign_of_ne_neg_zero hne
    refine ⟨unsigned, hunsigned, ?_⟩
    rw [percent, hmul, hlt]
    cases negative with
    | false =>
      rw [if_pos (hplus.mpr rfl), String.toList_append, htext]
      rfl
    | true =>
      rw [if_neg (mt hplus.mp (by decide)), htext]
      rfl

theorem space_not_mem_percent (delta : Binary64) : ' ' ∉ (percent delta).toList := by
  cases delta with
  | nan =>
    rw [percent_nan]
    decide
  | number negative rank hle =>
    by_cases hzero : number negative rank hle = -zero
    · rw [hzero, percent_neg_zero]
      decide
    · obtain ⟨unsigned, hunsigned, htext⟩ := signedPercentage_percent rfl hzero
      have hsign : ∀ negative, ' ' ≠ signChar negative := by
        intro negative
        cases negative <;> decide
      rw [htext, List.mem_cons, not_or]
      exact ⟨hsign _, hunsigned.not_mem (by decide)⟩

theorem signedPercentage_percent_iff (delta : Binary64) :
    SignedPercentage (delta.lt zero) (percent delta) ↔ delta.isNaN = false ∧ delta ≠ -zero := by
  refine ⟨?_, fun h => signedPercentage_percent h.1 h.2⟩
  rintro ⟨unsigned, hunsigned, htext⟩
  constructor
  · cases delta with
    | nan =>
      rw [percent_nan] at htext
      have hhead : 'N' = '+' := List.head_eq_of_cons_eq htext
      exact absurd hhead (by decide)
    | number => rfl
  · rintro rfl
    rw [percent_neg_zero] at htext
    have htail : ['-', '0', '.', '0', '%'] = unsigned := List.tail_eq_of_cons_eq htext
    have hminus : '-' ∉ unsigned := hunsigned.not_mem (by decide)
    rw [← htail] at hminus
    exact hminus List.mem_cons_self

/-- What stands behind the last space of a row, up to its newline. -/
def lastWord (row : String) : String := String.ofList (row.toList.dropLast.rtakeWhile (· != ' '))

theorem exists_tableRow_eq (color : Bool) (width : Nat) (e : Entry) :
    ∃ front, tableRow color width e = front ++ " " ++ percent e.delta ++ "\n" :=
  ⟨_, rfl⟩

theorem lastWord_tableRow (color : Bool) (width : Nat) (e : Entry) :
    lastWord (tableRow color width e) = percent e.delta := by
  obtain ⟨front, hrow⟩ := exists_tableRow_eq color width e
  have hwithout : (tableRow color width e).toList.dropLast =
      front.toList ++ ' ' :: (percent e.delta).toList := by
    rw [hrow, String.toList_append, String.toList_append, String.toList_append]
    show List.dropLast (_ ++ ['\n']) = _
    rw [List.dropLast_concat, List.append_assoc]
    rfl
  have hspace : ∀ c ∈ (percent e.delta).toList, (c != ' ') = true := by
    intro c hc
    rw [bne_iff_ne]
    rintro rfl
    exact space_not_mem_percent e.delta hc
  rw [lastWord, hwithout, rtakeWhile_append_cons (by decide) hspace, String.ofList_toList]

/-- The table with the given rows. -/
def tableWith (color : Bool) (r : Report) (rows : List String) : String :=
  "Metric comparison: " ++ Style.paint color Style.bold 0 r.metric ++ "\n\n" ++ String.join rows ++
    "\n" ++ countsLine color r ++ "Better/worse ratio: " ++
    Style.paint color Style.bold 0 (amount r.summary.ratio) ++ "\n"

/-- The table of any report, with colours or without, has a row for each entry, and at the end of
each row stands a percentage with one sign, which is a minus exactly for a delta below zero.  Only
not-a-number and negative zero have no such percentage. -/
theorem percentage_signed_iff (color : Bool) (r : Report) :
    let row := tableRow color (categoryWidth r)
    render .summary color r = tableWith color r (r.entries.map row) ∧
      ∀ e : Entry, SignedPercentage (e.delta.lt zero) (lastWord (row e)) ↔
        e.delta.isNaN = false ∧ e.delta ≠ -zero := by
  refine ⟨table_eq color r, fun e => ?_⟩
  rw [lastWord_tableRow]
  exact signedPercentage_percent_iff e.delta

/-- Negative zero is not below zero, and has a plus in front of its minus. -/
theorem negative_zero_has_two_signs :
    let e : Entry := ⟨1, "q1", .one, .one, -zero, .unchanged⟩
    let summary : Summary := { better := .zero, worse := .one, unchanged := .one, ratio := .zero }
    let r : Report := { metric := "map", entries := [e], summary }
    let row := tableRow false (categoryWidth r) e
    render .summary false r = tableWith false r [row] ∧ e.delta.isNaN = false ∧
      e.delta.lt zero = false ∧ lastWord row = "+-0.0%" ∧
      ¬ SignedPercentage (e.delta.lt zero) (lastWord row) := by
  intro e summary r row
  have hword : lastWord row = percent (-zero) := lastWord_tableRow false _ e
  have hsigned : ¬ SignedPercentage ((-zero : Binary64).lt zero) (percent (-zero)) := fun h =>
    ((signedPercentage_percent_iff (-zero)).mp h).2 rfl
  rw [hword]
  exact ⟨table_eq false r, rfl, rfl, percent_neg_zero, hsigned⟩

end Report
end EvalDiff
