import EvalDiff.Binary64.Decimals

/-!
# Amounts in running text

Deltas and ratios are written with at most twelve significant digits and no more digits than
they need.  From one ten-thousandth up to below a million millions they stand without an
exponent, and then always with a point; outside that range they are scientific.
-/

namespace EvalDiff
namespace Report

open Decimal Binary64

/-- The most significant digits an amount has. -/
def amountDigits : Nat := 12

/-- An exponent with its sign and at least two digits. -/
def exponentText (exponent : Int) : List Char :=
  'e' :: (if exponent < 0 then '-' else '+') :: paddedDigits 2 exponent.natAbs

/-- A positive finite amount of the given rank. -/
def magnitudeText (rank : Nat) : List Char :=
  let (n, exponent) := significant amountDigits rank
  if exponent < -4 ∨ (amountDigits : Int) ≤ exponent then
    dropTrailingZeros (withPoint (amountDigits - 1) n) ++ exponentText exponent
  else
    let places := (amountDigits - 1 - exponent).toNat
    let fixed := dropTrailingZeros (withPoint places (roundedAt places rank))
    if fixed.contains '.' then fixed else fixed ++ ['.', '0']

def amount : Binary64 → String
  | .nan => "nan"
  | .number negative rank _ =>
    String.ofList <| signText negative ++
      if rank = topRank then ['i', 'n', 'f']
      else if rank = 0 then ['0', '.', '0']
      else magnitudeText rank

end Report
end EvalDiff
