import EvalDiff.Program

/-!
# The executable

Connects the program to the real files, the environment and the standard streams.
-/

namespace EvalDiff
namespace Executable

open Disk

/-- The number of a system error and its description, from either sign of the number. -/
def systemError? : IO.Error → Option (Nat × String)
  | .alreadyExists _ code details | .otherError code details | .resourceBusy code details
  | .resourceVanished code details | .unsupportedOperation code details
  | .hardwareFault code details | .unsatisfiedConstraints code details
  | .illegalOperation code details | .protocolError code details | .timeExpired code details
  | .interrupted _ code details | .noFileOrDirectory _ code details
  | .invalidArgument _ code details | .permissionDenied _ code details
  | .resourceExhausted _ code details | .inappropriateType _ code details
  | .noSuchThing _ code details =>
    some (min code.toNat (-code).toNat, details)
  | _ => none

def accessFault (e : IO.Error) : AccessFault :=
  match systemError? e with
  | some (2, _) => .notFound
  | some (20, _) => .notADirectory
  | some (21, _) => .isADirectory
  | some (36, _) => .nameTooLong
  | some (13, _) => .other "Permission denied" 13
  | some (code, details) => .other details.capitalize code
  | none => .other e.toString 0

/-- An access to a path, with its failure as a value. -/
def attempt {α : Type} (path : String) (access : IO α) : IO (Except AccessFault α) := do
  if path.toList.contains '\x00' then return .error .unusableName
  else
    try return .ok (← access)
    catch e => return .error (accessFault e)

def disk : Disk IO where
  read path := attempt path do return (← IO.FS.readBinFile path).toList
  write path bytes := attempt path (IO.FS.writeBinFile path ⟨bytes.toArray⟩)

/-- Whether the environment and standard output ask for colours. -/
def color : IO Bool := do
  return Program.wantsColor (← IO.getEnv "CLICOLOR_FORCE") (← IO.getEnv "NO_COLOR")
    (← IO.getEnv "CLICOLOR") (← (← IO.getStdout).isTty)

end Executable
end EvalDiff

/-- Runs the program on the command line and reports its outcome. -/
def main (arguments : List String) : IO UInt32 := do
  let color ← EvalDiff.Executable.color
  let outcome ← EvalDiff.Program.run EvalDiff.Executable.disk color arguments
  let output ← IO.getStdout
  output.putStr outcome.output
  output.flush
  if let some failure := outcome.failure then
    IO.eprintln ("Error: " ++ failure.message)
  return outcome.exitCode.toUInt32
