import EvalDiff.Comparison.Error
import EvalDiff.Report.Basic

/-!
# Comparing two logs

Both logs are walked line by line in step.  The baseline line decides whether a row is
compared: it has to carry the marker, and its category must not be the aggregate.  The
comparison line supplies the other value, and in strict mode it has to carry the same marker
and category.  The first thing that is wrong ends the comparison.
-/

namespace EvalDiff
namespace Comparison

open Log Report

structure Options where
  /-- What the first field of a compared row starts with. -/
  marker : String := "map"
  /-- The category of the row that sums up the others. -/
  aggregate : String := "all"
  strict : Bool := false
deriving DecidableEq, Repr

def categoryAt (line : Nat) (row : String) : Except Error String :=
  match category? row with
  | some category => .ok category
  | none => .error (.badRow line .noCategory)

def recordAt (line : Nat) (row : String) : Except Error Record :=
  (Record.ofLine row).mapError (.badRow line)

/-- Refuses a comparison row with another marker or category than the baseline row. -/
def checkAligned (o : Options) (line : Nat) (category comparison : String) :
    Except Error Unit :=
  if isMarked o.marker comparison then do
    let found ← categoryAt line comparison
    if found = category then return ()
    else throw (.misaligned line (.otherCategory category found))
  else throw (.misaligned line (.otherMarker o.marker))

/-- The entry for a pair of values.  Equal values are never divided, so only a change away from
zero is refused. -/
def entryOfValues (line : Nat) (category : String) (baseline comparison : Binary64) :
    Except Error Entry :=
  let verdict := Verdict.ofValues baseline comparison
  if verdict = .unchanged then
    .ok { line, category, baseline, comparison, delta := .zero, verdict }
  else if baseline.isZero then .error (.zeroBaseline line category)
  else
    .ok { line, category, baseline, comparison, delta := comparison / baseline - .one, verdict }

def compareRecords (line : Nat) (baseline comparison : String) : Except Error Entry := do
  let old ← recordAt line baseline
  let new ← recordAt line comparison
  entryOfValues line old.category old.value new.value

/-- The entry for a pair of lines, or none if the baseline line is not compared. -/
def compareLine (o : Options) (line : Nat) (baseline comparison : String) :
    Except Error (Option Entry) :=
  if isMarked o.marker baseline then do
    let category ← categoryAt line baseline
    if category = o.aggregate then return none
    else
      if o.strict then checkAligned o line category comparison
      return some (← compareRecords line baseline comparison)
  else return none

/-- The entries for pairs of lines, the first of which has the given number. -/
def compareLines (o : Options) : Nat → List (String × String) → Except Error (List Entry)
  | _, [] => return []
  | line, (baseline, comparison) :: rest => do
    let entry ← compareLine o line baseline comparison
    let entries ← compareLines o (line + 1) rest
    return entry.toList ++ entries

/-- Compares two logs of the same length. -/
def compare (o : Options) (baseline comparison : List String) : Except Error Report :=
  if baseline.length = comparison.length then do
    let entries ← compareLines o 1 (baseline.zip comparison)
    return Report.ofEntries o.marker entries
  else throw (.lengthsDiffer baseline.length comparison.length)

end Comparison
end EvalDiff
