import EvalDiff.Text.Split

/-!
# Paths

A path is a list of names with slashes between them.  How many slashes stand between two names
does not matter, but one at the front starts from the root, and one at the end asks for a
directory.
-/

namespace EvalDiff
namespace Disk

open Text

structure Path where
  fromRoot : Bool
  names : List String
  toDirectory : Bool
deriving DecidableEq, Repr

def Path.ofString (path : String) : Path :=
  let cs := path.toList
  { fromRoot := cs.head? = some '/'
    names := ((splitOn '/' cs).filter (!·.isEmpty)).map String.ofList
    toDirectory := cs.getLast? = some '/' }

/-- The most octets a name has. -/
def nameLimit : Nat := 255

/-- The most octets a path has. -/
def pathLimit : Nat := 4095

end Disk
end EvalDiff
