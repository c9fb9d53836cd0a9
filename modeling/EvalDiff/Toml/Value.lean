import EvalDiff.Binary64.Basic

/-!
# TOML values

Tables remember how they came about, because that decides what may still be added to them.
-/

namespace EvalDiff
namespace Toml

/-- How a table came about. -/
inductive Origin where
  /-- Under a header of its own; the root table too. -/
  | header
  /-- On the way to a table with a header. -/
  | passed
  /-- On the way of a dotted key. -/
  | dotted
  /-- Between braces. -/
  | inline
deriving DecidableEq, Repr

/-- Dates and times are checked and then not kept. -/
inductive Value where
  | string (text : String)
  | integer (value : Int)
  | float (value : Binary64)
  | boolean (value : Bool)
  | dateTime
  | array (items : List Value)
  | table (origin : Origin) (entries : List (String × Value))
  /-- The tables under an array header, the latest one last. -/
  | tables (rows : List (List (String × Value)))
deriving Repr

/-- The entries of a table, in the order they were made. -/
abbrev Entries := List (String × Value)

namespace Entries

def get? (entries : Entries) (key : String) : Option Value := entries.lookup key

/-- With the value of a key replaced, or the key added at the end. -/
def set (entries : Entries) (key : String) (value : Value) : Entries :=
  if entries.any (·.1 == key) then
    entries.map fun (k, v) => if k == key then (k, value) else (k, v)
  else entries ++ [(key, value)]

def erase (entries : Entries) (key : String) : Entries := entries.filter (·.1 != key)

end Entries

end Toml
end EvalDiff
