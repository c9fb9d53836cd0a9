import EvalDiff.Binary64.Arithmetic
import EvalDiff.Decimal.Numeral

/-!
# Reading doubles

A numeral of any length and exponent is read as the double nearest to its exact value, ties to
even.  A value token is a numeral, or one of the words for infinity and not-a-number, with a
sign or without.
-/

namespace EvalDiff
namespace Binary64

open Decimal

/-- The double nearest to a numeral's value.  Past a fixed number of places the result is
infinity or zero whatever the digits are, and the powers of ten need not be formed. -/
def ofNumeral (n : Numeral) : Binary64 :=
  let digits := (n.whole ++ n.fraction).length
  if n.coefficient = 0 then ofRank n.negative 0
  else if 400 < n.scale then infinity n.negative
  else if digits + n.scale < -400 then ofRank n.negative 0
  else
    ofUnits n.negative (n.coefficient * Nat.pow 10 n.scale.toNat * unitsPerOne)
      (Nat.pow 10 (-n.scale).toNat)

inductive TokenFault where
  | empty
  | malformed
deriving DecidableEq, Repr

def TokenFault.message : TokenFault → String
  | .empty => "cannot parse float from empty string"
  | .malformed => "invalid float literal"

/-- ASCII letters compare without regard to case, other characters as they are. -/
def sameWord (word : String) (cs : List Char) : Bool :=
  cs.map Char.toLower == word.toList

/-- A token after its sign. -/
def ofUnsignedToken (negative : Bool) (cs : List Char) : Option Binary64 :=
  if sameWord "nan" cs then some .nan
  else if sameWord "inf" cs || sameWord "infinity" cs then some (infinity negative)
  else
    match readUnsigned negative cs with
    | some (numeral, []) => some (ofNumeral numeral)
    | _ => none

/-- The number a token stands for.  Nothing may surround it, blanks included. -/
def ofToken (token : String) : Except TokenFault Binary64 :=
  if token.isEmpty then .error .empty
  else
    let (negative, cs) := readSign token.toList
    match ofUnsignedToken negative cs with
    | some x => .ok x
    | none => .error .malformed

end Binary64
end EvalDiff
