import EvalDiff.Binary64.Arithmetic
import EvalDiff.Verdict

/-!
# Reports

What a comparison finds: an entry for every category, and the counts of the verdicts as
doubles.  The count of worse entries is never below one, so that the ratio is defined; the
entries tell a lone regression from none.
-/

namespace EvalDiff

/-- One category at one line of both logs. -/
structure Report.Entry where
  line : Nat
  category : String
  baseline : Binary64
  comparison : Binary64
  delta : Binary64
  verdict : Verdict
deriving DecidableEq, Repr

structure Report.Summary where
  better : Binary64
  worse : Binary64
  unchanged : Binary64
  ratio : Binary64
deriving DecidableEq, Repr

structure Report where
  metric : String
  entries : List Report.Entry
  summary : Report.Summary
deriving DecidableEq, Repr

namespace Report

/-- Running counts of the verdicts. -/
structure Tally where
  better : Binary64
  worse : Binary64
  unchanged : Binary64
deriving DecidableEq, Repr

namespace Tally

def empty : Tally := ⟨.zero, .zero, .zero⟩

def count (t : Tally) : Verdict → Tally
  | .better => { t with better := t.better + .one }
  | .worse => { t with worse := t.worse + .one }
  | .unchanged => { t with unchanged := t.unchanged + .one }

def ofEntries (entries : List Entry) : Tally :=
  entries.foldl (fun t entry => t.count entry.verdict) empty

/-- The counts with the floor for worse entries, and the ratio. -/
def summary (t : Tally) : Summary :=
  let worse := if t.worse.isZero then .one else t.worse
  { better := t.better, worse, unchanged := t.unchanged, ratio := t.better / worse }

end Tally

/-- The report on the entries found for a metric. -/
def ofEntries (metric : String) (entries : List Entry) : Report :=
  { metric, entries, summary := (Tally.ofEntries entries).summary }

def count (r : Report) (v : Verdict) : Nat := r.entries.countP (·.verdict == v)

def hasRegressions (r : Report) : Bool := r.entries.any (·.verdict == .worse)

end Report
end EvalDiff
