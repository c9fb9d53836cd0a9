import EvalDiff.Report.Amount
import EvalDiff.Report.Basic
import EvalDiff.Text.Style

/-!
# The summary table

A row for each entry with its category, both values, the verdict and the delta in percent, and
below the rows the counts and the ratio.  The category column is as wide as the longest
category has octets, so no category is wider than its column.  A column can be padded up to a
width that fits into two octets; a longer category leaves a report without a table.
-/

namespace EvalDiff
namespace Report

open Text

/-- A delta in percent with one decimal place and its sign. -/
def percent (delta : Binary64) : String :=
  let text := Binary64.toFixed 1 (delta * .ofNat 100) ++ "%"
  if Binary64.zero.le delta then "+" ++ text else text

def verdictCell (color : Bool) : Verdict → String
  | .better => Style.paint color Style.boldGreen 6 "BETTER"
  | .worse => Style.paint color Style.boldRed 6 "WORSE"
  | .unchanged => Style.paint color Style.dimmed 6 "SAME"

def categoryWidth (r : Report) : Nat :=
  r.entries.foldl (fun width e => max width e.category.utf8ByteSize) 0

def categoryCell (color : Bool) (width : Nat) (category : String) : String :=
  Style.paint color Style.cyan width category

def tableRow (color : Bool) (width : Nat) (e : Entry) : String :=
  "  " ++ categoryCell color width e.category ++ "  " ++
    Binary64.toFixed 4 e.baseline ++ " -> " ++ Binary64.toFixed 4 e.comparison ++ "  " ++
    verdictCell color e.verdict ++ " " ++ percent e.delta ++ "\n"

/-- The line with the number of entries of each verdict. -/
def countsLine (color : Bool) (r : Report) : String :=
  "Summary: " ++ Style.paint color Style.green 0 (toString (r.count .better)) ++ " better, " ++
    Style.paint color Style.red 0 (toString (r.count .worse)) ++ " worse, " ++
    toString (r.count .unchanged) ++ " unchanged\n"

def table (color : Bool) (r : Report) : String :=
  "Metric comparison: " ++ Style.paint color Style.bold 0 r.metric ++ "\n\n" ++
    String.join (r.entries.map (tableRow color (categoryWidth r))) ++
    "\n" ++ countsLine color r ++
    "Better/worse ratio: " ++ Style.paint color Style.bold 0 (amount r.summary.ratio) ++ "\n"

def widestColumn : Nat := 65535

/-- The table, if its categories have room in a column. -/
def table? (color : Bool) (r : Report) : Option String :=
  if categoryWidth r ≤ widestColumn then some (table color r) else none

end Report
end EvalDiff
