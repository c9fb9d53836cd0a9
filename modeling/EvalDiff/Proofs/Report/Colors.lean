import EvalDiff.Proofs.Report.Table
import EvalDiff.Proofs.Text.Sequences

/-!
# The colours of the summary table

Every part of the table is plain or painted, and either way it is the same part without colours and
the sequences around it.  So the table with colours is the table without them once its sequences are
deleted, and the sequences take turns: `color_changes_only_sequences`.  The other formats have no
colours.
-/

namespace EvalDiff
namespace Report

open Binary64 Text

variable {r : Report} {e : Entry} {entries : List Entry} {n m : Nat}
  {colored plain colored' plain' : String}

/-- The first text is the second one with colours for so many parts of it. -/
def IsColored (n : Nat) (colored plain : String) : Prop := Colored n colored.toList plain.toList

theorem IsColored.append (h : IsColored n colored plain) (h' : IsColored m colored' plain') :
    IsColored (n + m) (colored ++ colored') (plain ++ plain') := by
  rw [IsColored, String.toList_append, String.toList_append]
  exact Colored.append h h'

theorem IsColored.of_eq (h : IsColored n colored plain) (hn : n = m) : IsColored m colored plain :=
  hn ▸ h

theorem Printing.escape_not_mem {text : String} (h : Printing text) : '\x1b' ∉ text.toList :=
  h.not_mem (by decide)

theorem Printing.isColored {text : String} (h : Printing text) : IsColored 0 text text :=
  colored_self h.escape_not_mem

theorem isColored_newline : IsColored 0 "\n" "\n" := colored_self (by decide)

theorem isColored_verdictCell (v : Verdict) :
    IsColored 1 (verdictCell true v) (verdictCell false v) := by
  cases v with
  | better => exact colored_paint (by decide) (by decide) 6
  | worse => exact colored_paint (by decide) (by decide) 6
  | unchanged => exact colored_paint (by decide) (by decide) 6

theorem isColored_tableRow (h : '\x1b' ∉ e.category.toList) (width : Nat) :
    IsColored 2 (tableRow true width e) (tableRow false width e) := by
  have hgap : IsColored 0 "  " "  " := Printing.isColored (by decide)
  have harrow : IsColored 0 " -> " " -> " := Printing.isColored (by decide)
  have hspace : IsColored 0 " " " " := Printing.isColored (by decide)
  have hcategory : IsColored 1 (categoryCell true width e.category)
      (categoryCell false width e.category) := colored_paint (by decide) h width
  have hvalue : ∀ x, IsColored 0 (toFixed 4 x) (toFixed 4 x) := fun x =>
    (printing_toFixed 4 x).isColored
  exact (((((((((hgap.append hcategory).append hgap).append (hvalue _)).append harrow).append
    (hvalue _)).append hgap).append (isColored_verdictCell _)).append hspace).append
      (printing_percent _).isColored).append isColored_newline

theorem isColored_rows (h : ∀ e ∈ entries, '\x1b' ∉ e.category.toList) (width : Nat) :
    IsColored (2 * entries.length) (String.join (entries.map (tableRow true width)))
      (String.join (entries.map (tableRow false width))) := by
  induction entries with
  | nil => exact .nil
  | cons e entries ih =>
    obtain ⟨he, hentries⟩ := List.forall_mem_cons.mp h
    rw [List.map_cons, List.map_cons, String.join_cons, String.join_cons]
    refine ((isColored_tableRow he width).append (ih hentries)).of_eq ?_
    rw [List.length_cons]
    omega

theorem isColored_countsLine (r : Report) :
    IsColored 2 (countsLine true r) (countsLine false r) := by
  have hcount : ∀ (style : Style) (n : Nat), style.Opens →
      IsColored 1 (Style.paint true style 0 (toString n))
        (Style.paint false style 0 (toString n)) :=
    fun style n hstyle => colored_paint hstyle (printing_toString n).escape_not_mem 0
  have hsummary : IsColored 0 "Summary: " "Summary: " := Printing.isColored (by decide)
  have hbetter : IsColored 0 " better, " " better, " := Printing.isColored (by decide)
  have hworse : IsColored 0 " worse, " " worse, " := Printing.isColored (by decide)
  have hunchanged : IsColored 0 " unchanged\n" " unchanged\n" := colored_self (by decide)
  exact (((((hsummary.append (hcount _ _ (by decide))).append hbetter).append
    (hcount _ _ (by decide))).append hworse).append (printing_toString _).isColored).append
      hunchanged

theorem isColored_table (hmetric : '\x1b' ∉ r.metric.toList)
    (hcategories : ∀ e ∈ r.entries, '\x1b' ∉ e.category.toList) :
    IsColored (2 * r.entries.length + 4) (table true r) (table false r) := by
  have hheading : IsColored 0 "Metric comparison: " "Metric comparison: " :=
    Printing.isColored (by decide)
  have hmetric' : IsColored 1 (Style.paint true Style.bold 0 r.metric)
      (Style.paint false Style.bold 0 r.metric) := colored_paint (by decide) hmetric 0
  have hblank : IsColored 0 "\n\n" "\n\n" := colored_self (by decide)
  have hratio : IsColored 0 "Better/worse ratio: " "Better/worse ratio: " :=
    Printing.isColored (by decide)
  have hamount : IsColored 1 (Style.paint true Style.bold 0 (amount r.summary.ratio))
      (Style.paint false Style.bold 0 (amount r.summary.ratio)) :=
    colored_paint (by decide) (printing_amount _).escape_not_mem 0
  rw [table_eq, table_eq]
  refine ((((((((hheading.append hmetric').append hblank).append
    (isColored_rows hcategories _)).append isColored_newline).append
      (isColored_countsLine r)).append hratio).append hamount).append isColored_newline).of_eq ?_
  omega

/-- Without escapes in the names, deleting the sequences from the table with colours gives the
table without, with its padding, and each sequence that switches something on is followed by the
one that switches everything off.  The heading, two cells of each row, two counts and the ratio are
painted.  No other format has colours.  A report that fits its format can be written in it with
colours and without. -/
theorem color_changes_only_sequences (hmetric : '\x1b' ∉ r.metric.toList)
    (hcategories : ∀ e ∈ r.entries, '\x1b' ∉ e.category.toList) :
    withoutSequences (render .summary true r).toList = (render .summary false r).toList ∧
      Alternates (sequences (render .summary true r).toList) ∧
      (sequences (render .summary true r).toList).length = 2 * (2 * r.entries.length + 4) ∧
      (∀ format : Format, format ≠ .summary → render format true r = render format false r) ∧
      ∀ format color, r.Fits format →
        render? format color r = some (render format color r) := by
  have htable : Colored (2 * r.entries.length + 4) (render .summary true r).toList
      (render .summary false r).toList := isColored_table hmetric hcategories
  obtain ⟨halternates, hlength⟩ := htable.alternates
  refine ⟨htable.withoutSequences_eq, halternates, hlength, fun format hformat => ?_,
    fun format color hfits => hfits.render?_eq color⟩
  cases format with
  | text | json | jsonPretty => rfl
  | summary => exact absurd rfl hformat

/-- An empty category, one of characters with several octets, and one that looks like the end of a
sequence. -/
theorem color_changes_only_sequences_three_entries :
    let summary : Summary := { better := .one, worse := .one, unchanged := .one, ratio := .one }
    let r : Report :=
      { metric := "map", summary
        entries :=
          [⟨1, "", .one, .one, .zero, .unchanged⟩, ⟨2, "é", .one, .zero, .infinity true, .worse⟩,
            ⟨4, "[0m", .one, .infinity false, .infinity false, .better⟩] }
    '\x1b' ∉ r.metric.toList ∧ (∀ e ∈ r.entries, '\x1b' ∉ e.category.toList) ∧
      withoutSequences (render .summary true r).toList = (render .summary false r).toList ∧
      Alternates (sequences (render .summary true r).toList) ∧
      (sequences (render .summary true r).toList).length = 20 ∧
      render .json true r = render .json false r ∧
      render? .summary true r = some (render .summary true r) := by
  intro summary r
  have hmetric : '\x1b' ∉ r.metric.toList := by decide
  have hcategories : ∀ e ∈ r.entries, '\x1b' ∉ e.category.toList := by simp [r]
  have hfits : r.Fits .summary := by decide
  obtain ⟨hdeleted, halternates, hlength, hothers, hwritten⟩ :=
    color_changes_only_sequences hmetric hcategories
  exact ⟨hmetric, hcategories, hdeleted, halternates, hlength, hothers .json (by decide),
    hwritten .summary true hfits⟩

end Report
end EvalDiff
