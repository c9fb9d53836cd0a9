import EvalDiff.Binary64.Basic

/-!
# Verdicts
-/

namespace EvalDiff

/-- The direction in which a value moved between two runs. -/
inductive Verdict where
  | better
  | worse
  | unchanged
deriving DecidableEq, Repr

namespace Verdict

/-- A larger value is better.  Values without an order, such as a number and not-a-number,
count as unchanged. -/
def ofValues (baseline comparison : Binary64) : Verdict :=
  if comparison.lt baseline then .worse
  else if baseline.lt comparison then .better
  else .unchanged

def label : Verdict → String
  | .better => "better"
  | .worse => "worse"
  | .unchanged => "unchanged"

def ofLabel? (label : String) : Option Verdict :=
  [better, worse, unchanged].find? (·.label == label)

theorem ofLabel?_label (v : Verdict) : ofLabel? v.label = some v := by
  cases v <;> rfl

end Verdict
end EvalDiff
