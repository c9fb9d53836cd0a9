import EvalDiff.Binary64.Basic
import EvalDiff.Decimal.Rounding

/-!
# Arithmetic on doubles

Each operation takes the exact result as a quotient of natural numbers of units and rounds it
once, to the nearest double, ties to even.
-/

namespace EvalDiff
namespace Binary64

open Decimal

/-- The rank nearest to `num / den` units, on the list of ranks continued past infinity.
With 53 binary digits kept, `doublings` is how far the spacing there has doubled; a quotient
that rounds up to a power of two lands on the first rank of the next stretch by itself. -/
def nearestRank (num den : Nat) : Nat :=
  let doublings := Nat.log2 (num / den) - 52
  doublings * binade + roundHalfEven num (den * Nat.pow 2 doublings)

/-- The double nearest to `num / den` units, with the given sign. -/
def ofUnits (negative : Bool) (num den : Nat) : Binary64 :=
  ofRank negative (nearestRank num den)

def ofNat (n : Nat) : Binary64 := ofUnits false (n * unitsPerOne) 1

/-- A sum that vanishes is positive zero, except that two negative zeros add up to one. -/
def add : Binary64 → Binary64 → Binary64
  | .number s a ha, .number t b hb =>
    if a = topRank then
      if b = topRank ∧ s ≠ t then .nan else .number s a ha
    else if b = topRank then .number t b hb
    else
      let sum := signedUnits s a + signedUnits t b
      if sum = 0 then ofRank (s && t) 0 else ofUnits (sum < 0) sum.natAbs 1
  | _, _ => .nan

def sub (x y : Binary64) : Binary64 := add x y.neg

/-- Zero times infinity is not a number. -/
def mul : Binary64 → Binary64 → Binary64
  | .number s a _, .number t b _ =>
    let negative := s != t
    if a = topRank ∨ b = topRank then
      if a = 0 ∨ b = 0 then .nan else infinity negative
    else ofUnits negative (units a * units b) unitsPerOne
  | _, _ => .nan

/-- Zero by zero and infinity by infinity are not numbers; any other number by zero is
infinite. -/
def div : Binary64 → Binary64 → Binary64
  | .number s a _, .number t b _ =>
    let negative := s != t
    if a = topRank then
      if b = topRank then .nan else infinity negative
    else if b = topRank then ofRank negative 0
    else if b = 0 then
      if a = 0 then .nan else infinity negative
    else ofUnits negative (units a * unitsPerOne) (units b)
  | _, _ => .nan

instance : Add Binary64 := ⟨add⟩
instance : Sub Binary64 := ⟨sub⟩
instance : Mul Binary64 := ⟨mul⟩
instance : Div Binary64 := ⟨div⟩
instance : Neg Binary64 := ⟨neg⟩

end Binary64
end EvalDiff
