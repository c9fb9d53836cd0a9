import EvalDiff.Binary64.Reading
import EvalDiff.Text.Hex
import EvalDiff.Toml.Value

/-!
# Bare values in TOML

Truth values, numbers, dates and times stand without quotes.  Each is one word, except that a
space may stand between a date and a time.
-/

namespace EvalDiff
namespace Toml

open Decimal Text

def isBare (c : Char) : Bool :=
  c.isAlphanum || c = '+' || c = '-' || c = '_' || c = '.' || c = ':'

/-- Digits of a class without the underscores that may stand between two of them. -/
def ungrouped? (isDigit : Char → Bool) : List Char → Option (List Char)
  | [] => none
  | [c] => if isDigit c then some [c] else none
  | c :: '_' :: cs => if isDigit c then (ungrouped? isDigit cs).map (c :: ·) else none
  | c :: cs => if isDigit c then (ungrouped? isDigit cs).map (c :: ·) else none

/-- Decimal digits that do not start with a needless zero. -/
def wholeDigits? (cs : List Char) : Option (List Char) := do
  let ds ← ungrouped? Char.isDigit cs
  if ds.head? = some '0' ∧ ds.length ≠ 1 then none else return ds

def digitsValue (base : Nat) (ds : List Char) : Nat :=
  ds.foldl (fun n c => n * base + (hexDigit? c).getD 0) 0

def isDigitOf (base : Nat) (c : Char) : Bool :=
  match hexDigit? c with
  | some d => d < base
  | none => false

def basedInteger? (base : Nat) (cs : List Char) : Option Int := do
  let value := digitsValue base (← ungrouped? (isDigitOf base) cs)
  if value < 0x8000000000000000 then return value else none

/-- An integer, which has to fit 64 bits with a sign. -/
def integer? : List Char → Option Int
  | '0' :: 'x' :: cs => basedInteger? 16 cs
  | '0' :: 'o' :: cs => basedInteger? 8 cs
  | '0' :: 'b' :: cs => basedInteger? 2 cs
  | cs => do
    let (negative, cs) := readSign cs
    let value := natOfDigits (← wholeDigits? cs)
    if negative then
      if value ≤ 0x8000000000000000 then return -(value : Int) else none
    else
      if value < 0x8000000000000000 then return (value : Int) else none

def exponent? (cs : List Char) : Option Int := do
  let (negative, cs) := readSign cs
  let value := natOfDigits (← ungrouped? Char.isDigit cs)
  return if negative then -(value : Int) else value

def mantissa? (cs : List Char) : Option (List Char × Option (List Char)) := do
  let whole ← wholeDigits? (cs.takeWhile (· != '.'))
  match cs.dropWhile (· != '.') with
  | [] => return (whole, none)
  | _ :: cs => return (whole, some (← ungrouped? Char.isDigit cs))

/-- A float written with a point, an exponent or both.  One too large for a double is refused,
unless it is negative. -/
def decimalFloat? (negative : Bool) (cs : List Char) : Option Binary64 := do
  let isMark := fun c => c = 'e' || c = 'E'
  let (whole, fraction) ← mantissa? (cs.takeWhile (!isMark ·))
  let exponent ← match cs.dropWhile (!isMark ·) with
    | [] => if fraction.isSome then some 0 else none
    | _ :: cs => exponent? cs
  let x := Binary64.ofNumeral { negative, whole, fraction := fraction.getD [], exponent }
  if x = .infinity false then none else return x

def float? (cs : List Char) : Option Binary64 :=
  let (negative, cs) := readSign cs
  if cs = ['i', 'n', 'f'] then some (.infinity negative)
  else if cs = ['n', 'a', 'n'] then some .nan
  else decimalFloat? negative cs

def twoDigits? (least most : Nat) (a b : Char) : Option Nat :=
  if a.isDigit && b.isDigit then
    let n := natOfDigits [a, b]
    if least ≤ n ∧ n ≤ most then some n else none
  else none

def daysOf (year month : Nat) : Nat :=
  if month = 2 then
    if year % 4 = 0 ∧ (year % 100 ≠ 0 ∨ year % 400 = 0) then 29 else 28
  else if month = 4 ∨ month = 6 ∨ month = 9 ∨ month = 11 then 30
  else 31

def dropDate? : List Char → Option (List Char)
  | a :: b :: c :: d :: '-' :: e :: f :: '-' :: g :: h :: cs => do
    if [a, b, c, d].all Char.isDigit then
      let month ← twoDigits? 1 12 e f
      let _ ← twoDigits? 1 (daysOf (natOfDigits [a, b, c, d]) month) g h
      return cs
    else none
  | _ => none

def dropDecimals? : List Char → Option (List Char)
  | '.' :: cs =>
    match spanDigits cs with
    | ([], _) => none
    | (_, rest) => some rest
  | cs => some cs

/-- What follows a time of day.  A minute may have a leap second. -/
def dropTime? : List Char → Option (List Char)
  | a :: b :: ':' :: c :: d :: ':' :: e :: f :: cs => do
    let _ ← twoDigits? 0 23 a b
    let _ ← twoDigits? 0 59 c d
    let _ ← twoDigits? 0 60 e f
    dropDecimals? cs
  | _ => none

/-- Whether nothing but an offset from universal time is left, or nothing at all. -/
def isOffset : List Char → Bool
  | [] => true
  | ['Z'] => true
  | ['z'] => true
  | [sign, a, b, ':', c, d] =>
    (sign = '+' || sign = '-') && (twoDigits? 0 23 a b).isSome && (twoDigits? 0 59 c d).isSome
  | _ => false

def isTimeWithOffset (cs : List Char) : Bool :=
  match dropTime? cs with
  | some rest => isOffset rest
  | none => false

def isDate (cs : List Char) : Bool := dropDate? cs = some []

def isDateTime (cs : List Char) : Bool :=
  dropTime? cs = some [] ||
    match dropDate? cs with
    | none => false
    | some [] => true
    | some (mark :: rest) => (mark = 'T' || mark = 't') && isTimeWithOffset rest

def bareValue? (cs : List Char) : Option Value :=
  if cs = ['t', 'r', 'u', 'e'] then some (.boolean true)
  else if cs = ['f', 'a', 'l', 's', 'e'] then some (.boolean false)
  else if isDateTime cs then some .dateTime
  else
    match float? cs with
    | some x => some (.float x)
    | none => (integer? cs).map .integer

end Toml
end EvalDiff
