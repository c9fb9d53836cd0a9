import EvalDiff.Disk.Access
import EvalDiff.Settings.Document
import EvalDiff.Text.Utf8

/-!
# Settings files
-/

namespace EvalDiff
namespace Settings

inductive TextFault where
  | refused (fault : Disk.AccessFault)
  | notText
deriving DecidableEq, Repr

def TextFault.message : TextFault → String
  | .refused fault => fault.message
  | .notText => "stream did not contain valid UTF-8"

/-- Why settings are not loaded or not saved. -/
inductive Error where
  | unreadable (path : String) (fault : TextFault)
  | malformed (path : String)
  | unwritable (path : String) (fault : Disk.AccessFault)
deriving DecidableEq, Repr

namespace Error

def message : Error → String
  | .unreadable path _ => "Failed to read config file: " ++ path
  | .malformed path => "Failed to parse config file: " ++ path
  | .unwritable path _ => "Failed to write config file: " ++ path

/-- What was attempted and why it failed. -/
def fullMessage : Error → String
  | .unreadable path fault => message (.unreadable path fault) ++ ": " ++ fault.message
  | .malformed path => message (.malformed path)
  | .unwritable path fault => message (.unwritable path fault) ++ ": " ++ fault.message

end Error

/-- The settings that the octets of a file hold. -/
def ofBytes (path : String) (bytes : List UInt8) : Except Error Settings :=
  match Text.decode? bytes with
  | none => .error (.unreadable path .notText)
  | some cs =>
    match ofDocument? cs with
    | none => .error (.malformed path)
    | some s => .ok s

def load {m : Type → Type} [Monad m] (disk : Disk m) (path : String) :
    ExceptT Error m Settings := do
  match ← disk.read path with
  | .ok bytes => ExceptT.mk (pure (ofBytes path bytes))
  | .error fault => throw (.unreadable path (.refused fault))

def save {m : Type → Type} [Monad m] (disk : Disk m) (path : String) (s : Settings) :
    ExceptT Error m Unit := do
  match ← disk.write path (Text.encode s.document) with
  | .ok () => return ()
  | .error fault => throw (.unwritable path fault)

end Settings
end EvalDiff
