import EvalDiff.Report.Document
import EvalDiff.Report.Stream
import EvalDiff.Report.Table

/-!
# Output formats
-/

namespace EvalDiff
namespace Report

inductive Format where
  | text
  | summary
  | json
  | jsonPretty
deriving DecidableEq, Repr

namespace Format

def name : Format → String
  | .text => "text"
  | .summary => "summary"
  | .json => "json"
  | .jsonPretty => "json-pretty"

/-- The format with a name, which is matched as it is. -/
def ofName? (name : String) : Option Format :=
  [text, summary, json, jsonPretty].find? (·.name == name)

theorem ofName?_name (f : Format) : ofName? f.name = some f := by
  cases f <;> rfl

end Format

/-- A report in a format.  Only the summary table has colours. -/
def render (format : Format) (color : Bool) (r : Report) : String :=
  match format with
  | .text => stream r
  | .summary => table color r
  | .json => document .compact r
  | .jsonPretty => document .indented r

/-- A report in a format, where it can be written in that format at all. -/
def render? (format : Format) (color : Bool) (r : Report) : Option String :=
  match format with
  | .summary => table? color r
  | .text | .json | .jsonPretty => some (render format color r)

end Report
end EvalDiff
