import EvalDiff.Disk.Fault
import EvalDiff.Log.Record

/-!
# Errors of a comparison
-/

namespace EvalDiff
namespace Comparison

/-- Why a comparison row does not belong to the baseline row it is paired with. -/
inductive AlignmentFault where
  | otherMarker (expected : String)
  | otherCategory (baseline comparison : String)
  /-- A fault that a caller reports in words of its own.  No comparison ends with it. -/
  | reported (words : String)
deriving DecidableEq, Repr

def AlignmentFault.message : AlignmentFault → String
  | .otherMarker expected => "comparison row does not start with " ++ Text.quoted expected
  | .otherCategory baseline comparison =>
    "category " ++ Text.quoted baseline ++ " in baseline but " ++ Text.quoted comparison ++
      " in comparison"
  | .reported words => words

/-- Why two logs are not compared.  Lines count from one. -/
inductive Error where
  | unreadable (path : String) (fault : Disk.AccessFault)
  | notText (path : String) (line : Nat)
  | lengthsDiffer (baseline comparison : Nat)
  | badRow (line : Nat) (fault : Log.RowFault)
  | zeroBaseline (line : Nat) (category : String)
  | misaligned (line : Nat) (fault : AlignmentFault)
deriving DecidableEq, Repr

namespace Error

def message : Error → String
  | .unreadable path fault => "Failed to read file " ++ path ++ ": " ++ fault.message
  | .notText path line =>
    "File " ++ path ++ " is not valid UTF-8 (line " ++ toString line ++ ")"
  | .lengthsDiffer baseline comparison =>
    "Line count mismatch: baseline has " ++ toString baseline ++ " lines, comparison has " ++
      toString comparison
  | .badRow line fault => "Parse error at line " ++ toString line ++ ": " ++ fault.message
  | .zeroBaseline line category =>
    "Zero baseline value at line " ++ toString line ++ " (category " ++ category ++
      "): relative delta is undefined"
  | .misaligned line fault =>
    "Comparison line " ++ toString line ++ " is not aligned with baseline: " ++ fault.message

/-- The line at fault, if there is one. -/
def line? : Error → Option Nat
  | .unreadable .. => none
  | .notText _ line => some line
  | .lengthsDiffer .. => none
  | .badRow line _ => some line
  | .zeroBaseline line _ => some line
  | .misaligned line _ => some line

end Error
end Comparison
end EvalDiff
