import EvalDiff.Json.Number
import EvalDiff.Json.Reader
import EvalDiff.Json.Writer
import EvalDiff.Report.Basic

/-!
# Reports in JSON

A report is an object of objects, whose members are written in a fixed order.  It is read with
its members in any order and with others among them, or with the bare values of an object's
members as an array.
-/

namespace EvalDiff
namespace Report

open Json

def textValue (text : String) : Value := .string (some text)

/-- An object with names and values in the given order. -/
def record (members : List (String × Value)) : Value :=
  .object (members.map fun (name, v) => (some name, v))

def entryNames : List String :=
  ["line", "category", "baseline_value", "comparison_value", "relative_delta", "verdict"]

def entryValue (e : Entry) : Value :=
  record <| entryNames.zip
    [.ofNat e.line, textValue e.category, .ofBinary64 e.baseline, .ofBinary64 e.comparison,
      .ofBinary64 e.delta, textValue e.verdict.label]

def summaryNames : List String := ["better_count", "worse_count", "unchanged_count", "ratio"]

def summaryValue (s : Summary) : Value :=
  record <| summaryNames.zip
    [.ofBinary64 s.better, .ofBinary64 s.worse, .ofBinary64 s.unchanged, .ofBinary64 s.ratio]

def reportNames : List String := ["metric", "results", "summary"]

def toValue (r : Report) : Value :=
  record <| reportNames.zip
    [textValue r.metric, .array (r.entries.map entryValue), summaryValue r.summary]

def document (layout : Layout) (r : Report) : String :=
  String.ofList ((toValue r).write layout 0)

/-- The value of the only member with a name. -/
def member? (members : List (Option String × Value)) (name : String) : Option Value :=
  match members.filter (·.1 == some name) with
  | [(_, v)] => some v
  | _ => none

/-- The values of named members, each of which has to occur once, in the order of the names.  An
array of as many values stands for the same. -/
def members? (names : List String) : Value → Option (List Value)
  | .array items => if items.length = names.length then some items else none
  | .object members =>
    if members.all (·.1.isSome) then names.mapM (member? members) else none
  | _ => none

def text? : Value → Option String
  | .string text => text
  | _ => none

def binary64? : Value → Option Binary64
  | .number n => n.toBinary64?
  | _ => none

def nat? : Value → Option Nat
  | .number n => n.toNat?
  | _ => none

/-- A verdict by its label, alone or as the name of an only member that is null. -/
def verdict? : Value → Option Verdict
  | .string (some label) => Verdict.ofLabel? label
  | .object [(some label, .null)] => Verdict.ofLabel? label
  | _ => none

def entry? (v : Value) : Option Entry := do
  match ← members? entryNames v with
  | [line, category, baseline, comparison, delta, verdict] =>
    return {
      line := ← nat? line
      category := ← text? category
      baseline := ← binary64? baseline
      comparison := ← binary64? comparison
      delta := ← binary64? delta
      verdict := ← verdict? verdict }
  | _ => none

def entries? : Value → Option (List Entry)
  | .array items => items.mapM entry?
  | _ => none

def summary? (v : Value) : Option Summary := do
  match ← members? summaryNames v with
  | [better, worse, unchanged, ratio] =>
    return {
      better := ← binary64? better
      worse := ← binary64? worse
      unchanged := ← binary64? unchanged
      ratio := ← binary64? ratio }
  | _ => none

def ofValue? (v : Value) : Option Report := do
  match ← members? reportNames v with
  | [metric, entries, summary] =>
    return {
      metric := ← text? metric
      entries := ← entries? entries
      summary := ← summary? summary }
  | _ => none

def ofDocument? (text : String) : Option Report := do
  ofValue? (← Json.read? text.toList)

end Report
end EvalDiff
