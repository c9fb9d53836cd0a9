import EvalDiff.Text.Split

/-!
# Lines of an evaluation log

A log line is a row of fields with tabs between them: the marker of the measure, the category,
and at the end the value.  The marker and the category are looked up without splitting the
whole line.
-/

namespace EvalDiff
namespace Log

open Text

/-- The fields of a line, in order. -/
def fields (line : String) : List String :=
  (splitOn '\t' line.toList).map String.ofList

/-- The characters before the first tab. -/
def beforeTab (cs : List Char) : List Char := cs.takeWhile (· != '\t')

/-- The characters after the first tab, if there is one. -/
def afterTab? (cs : List Char) : Option (List Char) :=
  match cs.dropWhile (· != '\t') with
  | [] => none
  | _ :: cs => some cs

/-- Whether the first field starts with a marker. -/
def isMarked (marker line : String) : Bool :=
  marker.toList.isPrefixOf (beforeTab line.toList)

def category? (line : String) : Option String :=
  (afterTab? line.toList).map fun cs => String.ofList (beforeTab cs)

end Log
end EvalDiff
