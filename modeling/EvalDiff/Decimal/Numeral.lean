/-!
# Decimal numerals

A numeral is what is written: a sign, digits before and after the point, and an exponent of
ten.  Its value is the exact rational `coefficient * 10 ^ scale`, with the sign.  Every text
format of the library that holds numbers reads them into numerals first.
-/

namespace EvalDiff
namespace Decimal

/-- The digits from the front of a text, and what follows them. -/
def spanDigits (cs : List Char) : List Char × List Char := cs.span Char.isDigit

def natOfDigits (digits : List Char) : Nat := Nat.ofDigitChars 10 digits 0

structure Numeral where
  negative : Bool
  whole : List Char
  fraction : List Char
  exponent : Int
deriving DecidableEq, Repr

namespace Numeral

/-- All digits, read as one number. -/
def coefficient (n : Numeral) : Nat := natOfDigits (n.whole ++ n.fraction)

/-- The power of ten that the coefficient is multiplied by. -/
def scale (n : Numeral) : Int := n.exponent - n.fraction.length

end Numeral

/-- The fraction part at the front of a text: a point and the digits after it, of which there
may be none. -/
def readFraction : List Char → List Char × List Char
  | '.' :: cs => spanDigits cs
  | cs => ([], cs)

def readSign : List Char → Bool × List Char
  | '-' :: cs => (true, cs)
  | '+' :: cs => (false, cs)
  | cs => (false, cs)

/-- The exponent part at the front of a text: its letter, a sign or none, and at least one
digit.  `some (0, cs)` stands for a text without the letter. -/
def readExponent : List Char → Option (Int × List Char)
  | [] => some (0, [])
  | c :: cs =>
    if c = 'e' ∨ c = 'E' then
      let (negative, cs) := readSign cs
      match spanDigits cs with
      | ([], _) => none
      | (digits, rest) =>
        some (if negative then -(natOfDigits digits : Int) else natOfDigits digits, rest)
    else some (0, c :: cs)

/-- A numeral without its sign at the front of a text, with a digit on at least one side of the
point. -/
def readUnsigned (negative : Bool) (cs : List Char) : Option (Numeral × List Char) :=
  let (whole, cs) := spanDigits cs
  let (fraction, cs) := readFraction cs
  if whole.isEmpty && fraction.isEmpty then none
  else
    match readExponent cs with
    | none => none
    | some (exponent, cs) => some ({ negative, whole, fraction, exponent }, cs)

end Decimal
end EvalDiff
