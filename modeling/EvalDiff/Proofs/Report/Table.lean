import EvalDiff.Proofs.Report.Counts
import EvalDiff.Proofs.Report.Stream
import EvalDiff.Proofs.Report.Width

/-!
# The columns of the summary table

The category column has the size in octets of the longest category, and a character has at least
one octet.  So every category fits into the column with spaces behind it, whatever characters it
has, and the values start at one offset in all rows.  The line under the rows counts the entries;
the counts that the report carries have no part in it.
-/

namespace EvalDiff
namespace Report

open Binary64 Decimal Text

variable {r : Report} {e : Entry} {c : Char} {width places : Nat}

/-! ### Rows -/

/-- The word for a verdict as wide as its column. -/
def verdictWord : Verdict → String
  | .better => "BETTER"
  | .worse => "WORSE "
  | .unchanged => "SAME  "

/-- What a row tells of an entry behind its category. -/
def valuesText (e : Entry) : String :=
  toFixed 4 e.baseline ++ " -> " ++ toFixed 4 e.comparison ++ "  " ++ verdictWord e.verdict ++
    " " ++ percent e.delta

/-- A row for an entry in a table with a category column of the given width.  The label stands
whole behind two spaces, and spaces fill its column; two more follow, and then the values. -/
structure IsRow (width : Nat) (e : Entry) (row : String) : Prop where
  label : ∃ spaces, e.category.toList.length + spaces = width ∧
    row.toList.take (width + 4) =
      ' ' :: ' ' :: (e.category.toList ++ List.replicate spaces ' ') ++ [' ', ' ']
  values : row.toList.drop (width + 4) = (valuesText e).toList

/-- The row without its newline. -/
def rowText (width : Nat) (e : Entry) : String :=
  "  " ++ categoryCell false width e.category ++ "  " ++ valuesText e

theorem paint_false_zero (style : Style) (text : String) :
    Style.paint false style 0 text = text := by
  show String.ofList (text.toList.rightpad 0 ' ') = text
  rw [List.rightpad, Nat.zero_sub, List.replicate_zero, List.append_nil, String.ofList_toList]

theorem verdictCell_false (v : Verdict) : verdictCell false v = verdictWord v := by
  cases v <;> rfl

theorem tableRow_false (width : Nat) (e : Entry) :
    tableRow false width e = rowText width e ++ "\n" := by
  show "  " ++ categoryCell false width e.category ++ "  " ++ toFixed 4 e.baseline ++ " -> " ++
    toFixed 4 e.comparison ++ "  " ++ verdictCell false e.verdict ++ " " ++ percent e.delta ++
      "\n" = _
  rw [verdictCell_false, rowText, valuesText]
  simp only [String.append_assoc]

theorem isRow_rowText (h : e.category.toList.length ≤ width) :
    IsRow width e (rowText width e) := by
  let spaces := width - e.category.toList.length
  have hspaces : e.category.toList.length + spaces = width := Nat.add_sub_of_le h
  let front := ' ' :: ' ' :: (e.category.toList ++ List.replicate spaces ' ') ++ [' ', ' ']
  have hfront : front.length = width + 4 := by
    simp only [front, List.length_append, List.length_cons, List.length_replicate, List.length_nil]
    omega
  have hrow : (rowText width e).toList = front ++ (valuesText e).toList := by
    have hcell : (categoryCell false width e.category).toList =
        e.category.toList ++ List.replicate spaces ' ' := String.toList_ofList
    simp [rowText, front, hcell]
  exact
    { label := ⟨spaces, hspaces, by rw [hrow, List.take_left' hfront]⟩
      values := by rw [hrow, List.drop_left' hfront] }

/-! ### Texts without control characters -/

/-- Nothing in the text is below a space. -/
def Printing (text : String) : Prop := ∀ c ∈ text.toList, ' ' ≤ c

instance (text : String) : Decidable (Printing text) := List.decidableBAll _ text.toList

theorem Printing.append {text more : String} (h : Printing text) (hmore : Printing more) :
    Printing (text ++ more) := by
  intro c hc
  rw [String.toList_append] at hc
  exact (List.mem_append.mp hc).elim (h c) (hmore c)

theorem Printing.not_mem {text : String} (h : Printing text) (hc : c < ' ') : c ∉ text.toList :=
  fun hmem => Char.not_lt.mpr (h c hmem) hc

theorem le_of_isDigit (h : c.isDigit = true) : ' ' ≤ c := by
  have hzero : '0' ≤ c := Char.isDigit_iff_toNat.mp h |>.1
  exact Char.le_trans (by decide) hzero

theorem printing_toString (n : Nat) : Printing (toString n) := by
  intro c hc
  rw [Nat.toString_eq_ofList_toDigits, String.toList_ofList] at hc
  exact le_of_isDigit (isDigit_of_mem_digits hc)

theorem printing_amount (x : Binary64) : Printing (amount x) := by
  have hothers : ∀ c ∈ ['.', 'e', '+', '-', 'i', 'n', 'f', 'a'], ' ' ≤ c := by simp
  exact fun c hc => (mem_amount hc).elim le_of_isDigit (hothers c)

theorem le_of_mem_signText {negative : Bool} (h : c ∈ signText negative) : ' ' ≤ c := by
  cases negative with
  | false => cases h
  | true =>
    rw [List.mem_singleton.mp h]
    decide

theorem le_of_mem_withPoint {n : Nat} (h : c ∈ withPoint places n) : ' ' ≤ c := by
  rw [withPoint_eq] at h
  rcases mem_pointed h with h | rfl | h
  · exact le_of_isDigit (isDigit_of_mem_wholePart h)
  · decide
  · exact le_of_isDigit (isDigit_of_mem_fractionPart h)

theorem printing_toFixed (places : Nat) (x : Binary64) : Printing (toFixed places x) := by
  cases x with
  | nan =>
    have hword : Printing "NaN" := by decide
    exact hword
  | number negative rank hle =>
    intro c hc
    rw [toFixed] at hc
    split at hc
    · have hword : ∀ c ∈ ['i', 'n', 'f'], ' ' ≤ c := by simp
      rw [String.toList_ofList] at hc
      exact (List.mem_append.mp hc).elim le_of_mem_signText (hword c)
    · rw [String.toList_ofList] at hc
      exact (List.mem_append.mp hc).elim le_of_mem_signText le_of_mem_withPoint

theorem printing_percent (x : Binary64) : Printing (percent x) := by
  have hplus : Printing "+" := by decide
  have hsign : Printing "%" := by decide
  have htext := (printing_toFixed 1 (x * .ofNat 100)).append hsign
  rw [percent]
  split
  · exact hplus.append htext
  · exact htext

theorem printing_valuesText (e : Entry) : Printing (valuesText e) := by
  have hword : Printing (verdictWord e.verdict) := by
    cases e.verdict <;> decide
  have harrow : Printing " -> " := by decide
  have hgap : Printing "  " := by decide
  have hspace : Printing " " := by decide
  exact ((((((printing_toFixed 4 _).append harrow).append (printing_toFixed 4 _)).append
    hgap).append hword).append hspace).append (printing_percent _)

/-! ### The table -/

/-- The line that tells how many entries have each verdict. -/
def countsText (r : Report) : String :=
  let verdicts := r.entries.map (·.verdict)
  "Summary: " ++ toString (verdicts.count .better) ++ " better, " ++
    toString (verdicts.count .worse) ++ " worse, " ++
    toString (verdicts.count .unchanged) ++ " unchanged"

/-- The lines of the table with the given rows. -/
def tableLines (r : Report) (rows : List String) : List String :=
  ["Metric comparison: " ++ r.metric, ""] ++ rows ++
    ["", countsText r, "Better/worse ratio: " ++ amount r.summary.ratio]

theorem count_verdicts (r : Report) (v : Verdict) :
    (r.entries.map (·.verdict)).count v = r.count v := by
  rw [List.count_eq_countP, List.countP_map]
  rfl

theorem countsLine_false (r : Report) : countsLine false r = countsText r ++ "\n" := by
  have hend : " unchanged\n" = " unchanged" ++ "\n" := rfl
  show "Summary: " ++ Style.paint false Style.green 0 (toString (r.count .better)) ++ " better, " ++
    Style.paint false Style.red 0 (toString (r.count .worse)) ++ " worse, " ++
    toString (r.count .unchanged) ++ " unchanged\n" = _
  delta countsText
  rw [paint_false_zero, paint_false_zero, hend]
  simp only [count_verdicts, String.append_assoc]

theorem table_eq (color : Bool) (r : Report) :
    table color r = "Metric comparison: " ++ Style.paint color Style.bold 0 r.metric ++ "\n\n" ++
      String.join (r.entries.map (tableRow color (categoryWidth r))) ++ "\n" ++
      countsLine color r ++ "Better/worse ratio: " ++
      Style.paint color Style.bold 0 (amount r.summary.ratio) ++ "\n" :=
  rfl

theorem table_false (r : Report) :
    table false r = String.join
      ((tableLines r (r.entries.map (rowText (categoryWidth r)))).map (· ++ "\n")) := by
  have hrows : r.entries.map (tableRow false (categoryWidth r)) =
      (r.entries.map (rowText (categoryWidth r))).map (· ++ "\n") := by
    rw [List.map_map]
    exact List.map_congr_left fun e _ => tableRow_false _ e
  have hblank : "\n\n" = "\n" ++ "\n" := rfl
  rw [table_eq, hrows, countsLine_false, paint_false_zero, paint_false_zero, tableLines, hblank]
  simp only [List.map_append, List.map_cons, List.map_nil, String.join_append, String.join_cons,
    String.join_nil, String.append_assoc, String.append_empty, String.empty_append]

theorem printing_countsText (r : Report) : Printing (countsText r) := by
  have hsummary : Printing "Summary: " := by decide
  have hbetter : Printing " better, " := by decide
  have hworse : Printing " worse, " := by decide
  have hunchanged : Printing " unchanged" := by decide
  exact (((((hsummary.append (printing_toString _)).append hbetter).append
    (printing_toString _)).append hworse).append (printing_toString _)).append hunchanged

theorem newline_not_mem_of_mem_tableLines {rows : List String} (hmetric : '\n' ∉ r.metric.toList)
    (hrows : ∀ row ∈ rows, '\n' ∉ row.toList) :
    ∀ line ∈ tableLines r rows, '\n' ∉ line.toList := by
  have hheading : '\n' ∉ ("Metric comparison: " ++ r.metric).toList := by
    rw [String.toList_append, List.mem_append]
    exact not_or.mpr ⟨by decide, hmetric⟩
  have hratio : Printing ("Better/worse ratio: " ++ amount r.summary.ratio) :=
    Printing.append (by decide) (printing_amount _)
  have hempty : '\n' ∉ "".toList := by decide
  intro line hline
  simp only [tableLines, List.mem_append, List.mem_cons, List.not_mem_nil, or_false] at hline
  rcases hline with ((rfl | rfl) | hline) | rfl | rfl | rfl
  · exact hheading
  · exact hempty
  · exact hrows line hline
  · exact hempty
  · exact (printing_countsText r).not_mem (by decide)
  · exact hratio.not_mem (by decide)

theorem newline_not_mem_rowText (h : '\n' ∉ e.category.toList) (width : Nat) :
    '\n' ∉ (rowText width e).toList := by
  have hcell : '\n' ∉ (categoryCell false width e.category).toList := by
    have hlist : (categoryCell false width e.category).toList =
        e.category.toList ++ List.replicate (width - e.category.toList.length) ' ' :=
      String.toList_ofList
    rw [hlist, List.mem_append]
    exact not_or.mpr ⟨h, fun hmem => absurd (List.eq_of_mem_replicate hmem) (by decide)⟩
  have hvalues := (printing_valuesText e).not_mem (by decide : '\n' < ' ')
  simp [rowText, hcell, hvalues]

/-- Whatever the report says, there is a row for each entry in order, and in every row the label and
its spaces take up the size of the longest category, so that the values start at one offset.  The
counts are those of the entries.  Where no name has a newline, all these are lines of their own.
The table can be written if no label is too long for it. -/
theorem table_columns_align (r : Report) :
    let verdicts := r.entries.map (·.verdict)
    ∃ (width : Nat) (rows : List String),
      (r.entries ≠ [] →
        IsGreatest {n | ∃ e ∈ r.entries, e.category.utf8ByteSize = n} width) ∧
      List.Forall₂ (IsRow width) r.entries rows ∧
      render .summary false r = String.join ((tableLines r rows).map (· ++ "\n")) ∧
      ('\n' ∉ r.metric.toList → (∀ e ∈ r.entries, '\n' ∉ e.category.toList) →
        linesOfStream (render .summary false r) = tableLines r rows) ∧
      verdicts.count .better + verdicts.count .worse + verdicts.count .unchanged =
        r.entries.length ∧
      (r.Fits .summary → render? .summary false r = some (render .summary false r)) := by
  intro verdicts
  refine ⟨categoryWidth r, r.entries.map (rowText (categoryWidth r)), isGreatest_categoryWidth, ?_,
    table_false r, fun hmetric hcategories => ?_, ?_, fun hfits => hfits.render?_eq false⟩
  · rw [List.forall₂_map_right_iff, List.forall₂_same]
    exact fun e he => isRow_rowText ((length_le_utf8ByteSize _).trans (le_categoryWidth he))
  · have hrows : ∀ row ∈ r.entries.map (rowText (categoryWidth r)), '\n' ∉ row.toList := by
      intro row hrow
      obtain ⟨e, he, rfl⟩ := List.mem_map.mp hrow
      exact newline_not_mem_rowText (hcategories e he) _
    show linesOfStream (table false r) = _
    rw [table_false]
    exact linesOfStream_join (newline_not_mem_of_mem_tableLines hmetric hrows)
  · simp only [verdicts, count_verdicts, count]
    have hsum := countP_verdict_add r.entries
    omega

/-- A label of one character in two octets above one of three characters, in a report whose counts
are none of its entries'. -/
theorem table_columns_align_two_labels :
    let summary : Summary := { better := .zero, worse := .nan, unchanged := .zero, ratio := .one }
    let r : Report :=
      { metric := "map", summary
        entries :=
          [⟨1, "é", .one, .one, .zero, .unchanged⟩, ⟨2, "all", .one, .zero, .one, .worse⟩] }
    r.entries ≠ [] ∧ '\n' ∉ r.metric.toList ∧ (∀ e ∈ r.entries, '\n' ∉ e.category.toList) ∧
      ∃ rows, List.Forall₂ (IsRow 3) r.entries rows ∧
        linesOfStream (render .summary false r) = tableLines r rows ∧
        render? .summary false r = some (render .summary false r) := by
  intro summary r
  have hne : r.entries ≠ [] := List.cons_ne_nil _ _
  have hmetric : '\n' ∉ r.metric.toList := by decide
  have hcategories : ∀ e ∈ r.entries, '\n' ∉ e.category.toList := by simp [r]
  have hsizes : ∀ e ∈ r.entries, e.category.utf8ByteSize ≤ 3 :=
    List.forall_mem_cons.mpr ⟨by decide, List.forall_mem_singleton.mpr (by decide)⟩
  have hthree : IsGreatest {n | ∃ e ∈ r.entries, e.category.utf8ByteSize = n} 3 := by
    refine ⟨⟨_, List.mem_cons_of_mem _ List.mem_cons_self, by decide⟩, ?_⟩
    rintro n ⟨e, he, rfl⟩
    exact hsizes e he
  have hfits : r.Fits .summary := fun _ e he => Nat.le_trans (hsizes e he) (by decide)
  obtain ⟨width, rows, hgreatest, hrows, -, hlines, -, hwritten⟩ := table_columns_align r
  cases (hgreatest hne).unique hthree
  exact ⟨hne, hmetric, hcategories, rows, hrows, hlines hmetric hcategories, hwritten hfits⟩

end Report
end EvalDiff
