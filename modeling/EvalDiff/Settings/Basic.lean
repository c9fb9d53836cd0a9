import EvalDiff.Comparison.Compare
import EvalDiff.Report.Format

/-!
# Settings

What a run compares and how it reports, with the defaults that stand where nothing is set.
-/

namespace EvalDiff

structure Settings where
  /-- What the first field of a compared row starts with. -/
  marker : String := "map"
  /-- The category of the row that sums up the others. -/
  aggregate : String := "all"
  strict : Bool := false
  format : Report.Format := .text
deriving DecidableEq, Repr

namespace Settings

/-- The part of the settings that the comparison depends on. -/
def options (s : Settings) : Comparison.Options :=
  { marker := s.marker, aggregate := s.aggregate, strict := s.strict }

end Settings
end EvalDiff
