/-!
# JSON values

Numbers are kept as written, so that a reader decides how exactly it takes them.
-/

namespace EvalDiff
namespace Json

/-- A number as written: the digits before the point, those after it if there is a point, and
the exponent, its sign and digits, if there is one. -/
structure Number where
  negative : Bool
  whole : List Char
  fraction : Option (List Char)
  exponent : Option (Bool × List Char)
deriving DecidableEq, Repr

/-- A string is `none` if its escapes name half a surrogate pair, for then it is well formed but
stands for no text. -/
inductive Value where
  | null
  | boolean (value : Bool)
  | number (number : Number)
  | string (text : Option String)
  | array (items : List Value)
  | object (members : List (Option String × Value))
deriving Repr

end Json
end EvalDiff
