import EvalDiff.Binary64.Arithmetic
import EvalDiff.Binary64.Shortest
import EvalDiff.Decimal.Numeral
import EvalDiff.Json.Value

/-!
# Numbers in JSON

Doubles are written with the fewest digits, and read by scaling a 64-bit significand with a
power of ten, each step rounded to a double.
-/

namespace EvalDiff
namespace Json

open Decimal

/-- The digits of a number from their place values: `point` of them stand before the point.
From five places before the first digit to sixteen digits before the point no exponent is
used. -/
def Number.ofDigits (negative : Bool) (ds : List Char) (point : Int) : Number :=
  if 0 < point ∧ point ≤ 16 then
    { negative, whole := (ds.take point.toNat).rightpad point.toNat '0',
      fraction := some ((ds.drop point.toNat).rightpad 1 '0'), exponent := none }
  else if -5 < point ∧ point ≤ 0 then
    { negative, whole := ['0'],
      fraction := some (List.replicate (-point).toNat '0' ++ ds), exponent := none }
  else
    { negative, whole := ds.take 1,
      fraction := if ds.length = 1 then none else some (ds.drop 1),
      exponent := some (point - 1 < 0, digits (point - 1).natAbs) }

def Number.ofRank (negative : Bool) (rank : Nat) : Number :=
  if rank = 0 then
    { negative, whole := ['0'], fraction := some ['0'], exponent := none }
  else
    let (n, places) := Binary64.shortest rank
    ofDigits negative (digits n) (digitCount n - places)

/-- What is not finite has no number in JSON and becomes null. -/
def Value.ofBinary64 : Binary64 → Value
  | .nan => .null
  | .number negative rank _ =>
    if rank = topRank then .null else .number (Number.ofRank negative rank)

def Value.ofNat (n : Nat) : Value :=
  .number { negative := false, whole := digits n, fraction := none, exponent := none }

/-- Appends digits to a significand as long as it stays within 64 bits; also how many digits
are left then. -/
def appendDigits (significand : Nat) : List Char → Nat × Nat
  | [] => (significand, 0)
  | d :: ds =>
    let longer := significand * 10 + (d.toNat - '0'.toNat)
    if longer < 0x10000000000000000 then appendDigits longer ds else (significand, ds.length + 1)

def powerOfTen (n : Nat) : Binary64 := .ofNat (Nat.pow 10 n)

/-- A double times a power of ten.  The powers up to 308 are doubles and take one step; smaller
ones are reached by dividing repeatedly.  `none` if the result is too large. -/
def scaleByTen (x : Binary64) (exponent : Int) : Option Binary64 :=
  if -308 ≤ exponent then
    if exponent < 0 then some (x / powerOfTen exponent.natAbs)
    else if exponent ≤ 308 then
      let y := x * powerOfTen exponent.natAbs
      if y.isFinite then some y else none
    else if x.isZero then some x
    else none
  else if x.isZero then some x
  else scaleByTen (x / powerOfTen 308) (exponent + 308)
termination_by (-exponent).toNat
decreasing_by omega

/-- The double a number stands for.  Digits of the whole part that do not fit the significand
count as zeros, digits of the fraction that do not fit are dropped. -/
def Number.toBinary64? (n : Number) : Option Binary64 :=
  let fraction := n.fraction.getD []
  let (significand, skipped) := appendDigits 0 n.whole
  let (significand, dropped) := appendDigits significand fraction
  let exponent : Int :=
    match n.exponent with
    | none => 0
    | some (negative, ds) => if negative then -(natOfDigits ds : Int) else natOfDigits ds
  let scaled :=
    scaleByTen (.ofNat significand) (exponent + skipped - (fraction.length - dropped : Nat))
  scaled.map fun x => if n.negative then -x else x

/-- An unsigned 64-bit integer, written as one. -/
def Number.toNat? (n : Number) : Option Nat :=
  if n.negative ∨ n.fraction.isSome ∨ n.exponent.isSome then none
  else
    let value := natOfDigits n.whole
    if value < 0x10000000000000000 then some value else none

end Json
end EvalDiff
