import EvalDiff.Binary64.Basic
import EvalDiff.Decimal.Digits
import EvalDiff.Decimal.Rounding

/-!
# Doubles in decimal

The exact value of a double rounded to a number of decimal places or of significant digits,
ties to even.  Both come from one rounding of the exact value, so a fixed number of places
and a number of significant digits that reach the same place give the same digits.
-/

namespace EvalDiff
namespace Binary64

open Decimal

/-- The value of a rank rounded to a multiple of `10 ^ -places`, counted in those multiples.
A negative number of places rounds to tens, hundreds and so on. -/
def roundedAt (places : Int) (rank : Nat) : Nat :=
  roundHalfEven (units rank * Nat.pow 10 places.toNat)
    (unitsPerOne * Nat.pow 10 (-places).toNat)

/-- The exponent of the power of ten at or below the value of a positive rank.  From one on it
is told by the digits of the whole part.  Below one, `10 ^ -k` is at or below the value as long
as `10 ^ k` is above the last integer before the value's reciprocal. -/
def leadingExponent (rank : Nat) : Int :=
  if unitsPerOne ≤ units rank then (digitCount (units rank / unitsPerOne) : Int) - 1
  else -(digitCount ((unitsPerOne - 1) / units rank) : Int)

/-- A positive value to the given number of significant digits: the digits as one number, and
the exponent of the first of them.  Rounding up to a power of ten moves to the next
exponent. -/
def significant (count rank : Nat) : Nat × Int :=
  let exponent := leadingExponent rank
  let n := roundedAt (count - 1 - exponent) rank
  if n < Nat.pow 10 count then (n, exponent) else (n / 10, exponent + 1)

/-- A minus for a negative sign and nothing otherwise. -/
def signText (negative : Bool) : List Char := if negative then ['-'] else []

/-- A number with a fixed number of decimal places.  Negative zero keeps its sign. -/
def toFixed (places : Nat) : Binary64 → String
  | .nan => "NaN"
  | .number negative rank _ =>
    if rank = topRank then String.ofList (signText negative ++ ['i', 'n', 'f'])
    else String.ofList (signText negative ++ withPoint places (roundedAt places rank))

end Binary64
end EvalDiff
