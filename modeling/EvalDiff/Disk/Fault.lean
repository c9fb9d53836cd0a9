/-!
# Refused file accesses
-/

namespace EvalDiff
namespace Disk

/-- Why the operating system refuses to open a file. -/
inductive AccessFault where
  | notFound
  | notADirectory
  | isADirectory
  | nameTooLong
  /-- A name with a zero character in it, which no call can carry. -/
  | unusableName
  | other (description : String) (code : Nat)
deriving DecidableEq, Repr

/-- The system's description of an error, with its number. -/
def numbered (description : String) (code : Nat) : String :=
  description ++ " (os error " ++ toString code ++ ")"

def AccessFault.message : AccessFault → String
  | .notFound => numbered "No such file or directory" 2
  | .notADirectory => numbered "Not a directory" 20
  | .isADirectory => numbered "Is a directory" 21
  | .nameTooLong => numbered "File name too long" 36
  | .unusableName => "file name contained an unexpected NUL byte"
  | .other description code => numbered description code

end Disk
end EvalDiff
