/-!
# Digits of natural numbers

Writing a natural number in decimal, padding it with zeros, and putting a decimal point into
it.  `dropTrailingZeros` shortens what has a point and leaves whole numbers alone.
-/

namespace EvalDiff
namespace Decimal

/-- The decimal digits of a number; zero has one. -/
def digits (n : Nat) : List Char := Nat.toDigits 10 n

def digitCount (n : Nat) : Nat := (digits n).length

/-- The digits of a number with zeros in front up to the given width. -/
def paddedDigits (width n : Nat) : List Char := (digits n).leftpad width '0'

/-- The number `n / 10 ^ places` with exactly that many digits after the point, and no point
if there are none. -/
def withPoint (places n : Nat) : List Char :=
  let ds := paddedDigits (places + 1) n
  let whole := ds.length - places
  if places = 0 then ds else ds.take whole ++ '.' :: ds.drop whole

/-- A text without the run of `c` at its end. -/
def dropTrailing (c : Char) (cs : List Char) : List Char :=
  (cs.reverse.dropWhile (· == c)).reverse

/-- What has a point loses the zeros at its end, and the point too if nothing follows it. -/
def dropTrailingZeros (cs : List Char) : List Char :=
  if cs.contains '.' then dropTrailing '.' (dropTrailing '0' cs) else cs

end Decimal
end EvalDiff
