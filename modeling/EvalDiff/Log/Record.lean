import EvalDiff.Binary64.Reading
import EvalDiff.Log.Line
import EvalDiff.Text.Blank
import EvalDiff.Text.Quoted

/-!
# Records

The category and the value of a row, with what can be wrong with it.
-/

namespace EvalDiff
namespace Log

inductive RowFault where
  | noCategory
  | tooFewFields (found : Nat)
  | invalidValue (token : String) (fault : Binary64.TokenFault)
  /-- A fault that a caller reports in words of its own.  Reading a row never ends with it. -/
  | reported (words : String)
deriving DecidableEq, Repr

def RowFault.message : RowFault → String
  | .noCategory => "metric row has no category field"
  | .tooFewFields found => "expected at least 3 tab-separated fields, found " ++ toString found
  | .invalidValue token fault =>
    "invalid value token " ++ Text.quoted token ++ ": " ++ fault.message
  | .reported words => words

structure Record where
  category : String
  value : Binary64
deriving DecidableEq, Repr

/-- The number in a value field, which blanks may surround. -/
def readValue (field : String) : Except RowFault Binary64 :=
  let token := String.ofList (Text.trim field.toList)
  (Binary64.ofToken token).mapError (.invalidValue token)

/-- The record of a row: the second field and the number in the last one.  What stands between
them does not matter. -/
def Record.ofLine (line : String) : Except RowFault Record :=
  match fields line with
  | _ :: category :: field :: more => do
    let value ← readValue ((field :: more).getLast (List.cons_ne_nil _ _))
    return { category, value }
  | fields => .error (.tooFewFields fields.length)

end Log
end EvalDiff
