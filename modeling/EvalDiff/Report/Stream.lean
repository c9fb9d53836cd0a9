import EvalDiff.Report.Amount
import EvalDiff.Report.Basic

/-!
# The line stream

The plain output: a line with the category of each entry, for a changed one also a line with
the verdict and a line with the delta, and the ratio on the last line.
-/

namespace EvalDiff
namespace Report

def entryLines (e : Entry) : List String :=
  if e.verdict = .unchanged then [e.category]
  else [e.category, e.verdict.label, amount e.delta]

def streamLines (r : Report) : List String :=
  r.entries.flatMap entryLines ++ [amount r.summary.ratio]

/-- Each line with a newline after it. -/
def stream (r : Report) : String :=
  String.join ((streamLines r).map (· ++ "\n"))

end Report
end EvalDiff
