import EvalDiff.Disk.Access
import EvalDiff.Disk.Path

/-!
# A tree of files

Files and directories by the names on the way to them from the root, and a working directory
from which paths start that do not start from the root.  A path is walked name by name, and the
first name that leads nowhere decides what is wrong with it.
-/

namespace EvalDiff
namespace Disk

inductive Node where
  | file (bytes : List UInt8)
  | directory
deriving DecidableEq, Repr

structure Tree where
  nodes : List (List String × Node)
  workingDirectory : List String
deriving DecidableEq, Repr

namespace Tree

/-- What is at a place.  The root is always a directory. -/
def node? (t : Tree) (place : List String) : Option Node :=
  if place.isEmpty then some .directory else t.nodes.lookup place

/-- With a node at a place, instead of the one that is there or besides the others. -/
def put (t : Tree) (place : List String) (node : Node) : Tree :=
  { t with nodes := (place, node) :: t.nodes.filter (·.1 != place) }

/-- The directory that a name leads to from a directory. -/
def enter (t : Tree) (directory : List String) (name : String) :
    Except AccessFault (List String) :=
  if name = "." then .ok directory
  else if name = ".." then .ok directory.dropLast
  else if nameLimit < name.utf8ByteSize then .error .nameTooLong
  else
    match t.node? (directory ++ [name]) with
    | none => .error .notFound
    | some (.file _) => .error .notADirectory
    | some .directory => .ok (directory ++ [name])

/-- Where a path leads: the directory its last name is looked up in, that name, and whether the
path asks for a directory.  There is no last name if the path ends at a directory it has
walked to. -/
def locate (t : Tree) (path : String) :
    Except AccessFault (List String × Option String × Bool) :=
  let p := Path.ofString path
  let start := if p.fromRoot then [] else t.workingDirectory
  if path.toList.contains '\x00' then .error .unusableName
  else if path.isEmpty then .error .notFound
  else if pathLimit < path.utf8ByteSize then .error .nameTooLong
  else do
    let directory ← p.names.dropLast.foldlM t.enter start
    match p.names.getLast? with
    | none => return (directory, none, p.toDirectory)
    | some name =>
      if name = "." ∨ name = ".." then return (directory, none, p.toDirectory)
      else return (directory, some name, p.toDirectory)

def read (t : Tree) (path : String) : Except AccessFault (List UInt8) := do
  match ← t.locate path with
  | (_, none, _) => throw .isADirectory
  | (directory, some name, toDirectory) =>
    if nameLimit < name.utf8ByteSize then throw .nameTooLong
    else
      match t.node? (directory ++ [name]) with
      | none => throw .notFound
      | some .directory => throw .isADirectory
      | some (.file bytes) => if toDirectory then throw .notADirectory else return bytes

/-- The place of the file that writing to a path makes or replaces. -/
def target (t : Tree) (path : String) : Except AccessFault (List String) := do
  match ← t.locate path with
  | (_, none, _) => throw .isADirectory
  | (directory, some name, toDirectory) =>
    if toDirectory then throw .isADirectory
    else if nameLimit < name.utf8ByteSize then throw .nameTooLong
    else
      match t.node? (directory ++ [name]) with
      | some .directory => throw .isADirectory
      | _ => return directory ++ [name]

def write (t : Tree) (path : String) (bytes : List UInt8) : Except AccessFault Tree := do
  return t.put (← t.target path) (.file bytes)

/-- Access to the files of a tree, which is the state. -/
def disk : Disk (StateM Tree) where
  read path := do return (← get).read path
  write path bytes := do
    match (← get).write path bytes with
    | .ok t =>
      set t
      return .ok ()
    | .error fault => return .error fault

end Tree
end Disk
end EvalDiff
