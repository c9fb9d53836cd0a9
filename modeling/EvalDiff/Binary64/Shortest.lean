import EvalDiff.Binary64.Decimals

/-!
# Shortest decimals

The decimal with the fewest digits among those that are nearer to a double than to any other
double.  Of several with that many digits the one nearest to the double's value is taken, and
of two equally near ones the even one.
-/

namespace EvalDiff
namespace Binary64

open Decimal

/-- Whether `n * 10 ^ -places` reads as the double of the given positive rank: it lies between
the midpoints to the neighbouring ranks, and a midpoint itself counts for an even rank. -/
def readsAs (rank : Nat) (places : Int) (n : Nat) : Bool :=
  let value := 2 * n * unitsPerOne * Nat.pow 10 (-places).toNat
  let below := (units (rank - 1) + units rank) * Nat.pow 10 places.toNat
  let above := (units rank + units (rank + 1)) * Nat.pow 10 places.toNat
  if rank % 2 = 0 then below ≤ value && value ≤ above else below < value && value < above

/-- A decimal with the given number of digits, the first of them in the place of `exponent`,
that reads as the double: of the two multiples around its value, the nearer one that does. -/
def shortened? (exponent : Int) (rank count : Nat) : Option (Nat × Int) :=
  let places := count - 1 - exponent
  let nearest := roundedAt places rank
  let lower :=
    units rank * Nat.pow 10 places.toNat / (unitsPerOne * Nat.pow 10 (-places).toNat)
  let other := if nearest = lower then lower + 1 else lower
  if readsAs rank places nearest then some (nearest, places)
  else if readsAs rank places other then some (other, places)
  else none

/-- The digits of the shortest decimal of a positive finite rank, and how many of them stand
after the point.  Seventeen digits tell any two doubles apart.  A zero at the end would make a
shorter decimal, so there is none, except that the one-digit search can round up to ten. -/
def shortest (rank : Nat) : Nat × Int :=
  let exponent := leadingExponent rank
  match (List.range' 1 16).findSome? (shortened? exponent rank) with
  | some (10, places) => (1, places - 1)
  | some decimal => decimal
  | none => (roundedAt (16 - exponent) rank, 16 - exponent)

end Binary64
end EvalDiff
