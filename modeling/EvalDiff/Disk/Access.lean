import EvalDiff.Disk.Fault

/-!
# Access to files
-/

namespace EvalDiff

/-- The two things the program does with files: read one whole, and write one whole, making it
if it is missing. -/
structure Disk (m : Type → Type) where
  read : String → m (Except Disk.AccessFault (List UInt8))
  write : String → List UInt8 → m (Except Disk.AccessFault Unit)

end EvalDiff
