import EvalDiff.CommandLine
import EvalDiff.Log.File
import EvalDiff.Settings.File

/-!
# The program

A run reads settings, writes them if asked to, reads both logs, compares them and prints the
report.  Nothing is printed before all of that has succeeded.
-/

namespace EvalDiff
namespace Program

open CommandLine

inductive Failure where
  | usage (fault : UsageFault)
  | settings (error : Settings.Error)
  | comparison (error : Comparison.Error)
deriving DecidableEq, Repr

/-- The message with the reasons behind it.  A log that cannot be read names the reason in its
message already and then gives it once more. -/
def Failure.message : Failure → String
  | .usage fault => fault.message
  | .settings error => error.fullMessage
  | .comparison (.unreadable path fault) =>
    (Comparison.Error.unreadable path fault).message ++ ": " ++ fault.message
  | .comparison error => error.message

structure Outcome where
  exitCode : Nat
  output : String
  failure : Option Failure
deriving DecidableEq, Repr

/-- Whether to use colours, from the environment variables that force them on, switch them off
and switch them off on a terminal, and from whether the output is a terminal.  A variable that
holds a zero does not force or allow colours, but one that switches them off does so whatever it
holds. -/
def wantsColor (force noColor allow : Option String) (terminal : Bool) : Bool :=
  let on := fun (value : String) => value != "0"
  if force.any on then true
  else if noColor.isSome then false
  else allow.all on && terminal

section

variable {m : Type → Type} [Monad m]

/-- The settings in effect. -/
def effective (disk : Disk m) (i : Invocation) : ExceptT Settings.Error m Settings := do
  match i.config with
  | none => return i.apply {}
  | some path => return i.apply (← Settings.load disk path)

/-- The settings in effect, saved if the command line asks for that. -/
def prepare (disk : Disk m) (i : Invocation) : ExceptT Settings.Error m Settings := do
  let s ← effective disk i
  match i.saveConfig with
  | none => return s
  | some path =>
    Settings.save disk path s
    return s

/-- The report on the two logs of the command line. -/
def report (disk : Disk m) (i : Invocation) (s : Settings) :
    ExceptT Comparison.Error m Report := do
  let (baseline, comparison) ← Log.readPair disk i.baseline i.comparison
  ExceptT.mk (pure (Comparison.compare s.options baseline comparison))

/-- The exit code and the output of a run that has its report.  The code is 1 for a regression that
should not be let pass.  A report that cannot be written in the format breaks the run off: it stops
with a code of its own, prints nothing and reports no failure. -/
def ending (color : Bool) (i : Invocation) (format : Report.Format) (r : Report) : Nat × String :=
  match r.render? format color with
  | some text => (if i.failOnWorse && r.hasRegressions then 1 else 0, text)
  | none => (101, "")

/-- What a run does once its settings are in effect. -/
def conclude (disk : Disk m) (color : Bool) (i : Invocation) (s : Settings) :
    ExceptT Failure m (Nat × String) := do
  let r ← (report disk i s).adapt Failure.comparison
  return ending color i s.format r

def perform (disk : Disk m) (color : Bool) (i : Invocation) :
    ExceptT Failure m (Nat × String) := do
  let s ← (prepare disk i).adapt Failure.settings
  conclude disk color i s

/-- Runs the program on its arguments.  A failure of any kind prints nothing and has the exit
code 2. -/
def run (disk : Disk m) (color : Bool) (arguments : List String) : m Outcome :=
  match parse arguments with
  | .error fault => pure { exitCode := 2, output := "", failure := some (.usage fault) }
  | .ok .help => pure { exitCode := 0, output := helpText, failure := none }
  | .ok .version => pure { exitCode := 0, output := versionText, failure := none }
  | .ok (.run i) => do
    match ← perform disk color i with
    | .ok (exitCode, output) => return { exitCode, output, failure := none }
    | .error failure => return { exitCode := 2, output := "", failure := some failure }

end

end Program
end EvalDiff
