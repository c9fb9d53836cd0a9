import EvalDiff.Comparison.Error
import EvalDiff.Disk.Access
import EvalDiff.Text.Split
import EvalDiff.Text.Utf8

/-!
# Reading log files

A log is read whole before anything is compared.  Octets that are no text are reported with the
line they are on, which is one more than the newlines in the valid text before them.
-/

namespace EvalDiff
namespace Log

open Comparison Text

/-- The lines that the octets of a file hold. -/
def linesOf (path : String) (bytes : List UInt8) : Except Error (List String) :=
  match decode bytes with
  | (cs, []) => .ok ((lines cs).map String.ofList)
  | (cs, _) => .error (.notText path (cs.count '\n' + 1))

def readLines {m : Type → Type} [Monad m] (disk : Disk m) (path : String) :
    ExceptT Error m (List String) := do
  match ← disk.read path with
  | .ok bytes => ExceptT.mk (pure (linesOf path bytes))
  | .error fault => throw (.unreadable path fault)

/-- The lines of the baseline and of the comparison, read in this order. -/
def readPair {m : Type → Type} [Monad m] (disk : Disk m) (baseline comparison : String) :
    ExceptT Error m (List String × List String) := do
  let old ← readLines disk baseline
  let new ← readLines disk comparison
  return (old, new)

end Log
end EvalDiff
