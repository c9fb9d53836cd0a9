/-!
# Doubles

A double is not-a-number, or a sign and a magnitude.  The magnitudes from zero to infinity
form one increasing list, and a magnitude is stored as its place in that list, its *rank*:
zero has rank 0, the smallest positive double rank 1, infinity rank `topRank`.  Neighbouring
doubles have neighbouring ranks, so the order of doubles is the order of integers.

The value of a rank is a natural number of *units*, one unit being the smallest positive
double, 2 to the power -1074.  Ranks above `topRank` have values too.  They carry the same
spacing on beyond the largest double, which is what rounding an overflow refers to.
-/

namespace EvalDiff

/-- The rank of infinity, which is also its bit pattern. -/
def topRank : Nat := 0x7ff0000000000000

/-- The weight of the sign in a bit pattern: 2^63. -/
def signBit : Nat := 0x8000000000000000

/-- An IEEE 754 double.  There is a zero of each sign and only one not-a-number. -/
inductive Binary64 where
  | nan
  | number (negative : Bool) (rank : Nat) (le_top : rank ≤ topRank)
deriving DecidableEq, Repr

namespace Binary64

instance : Inhabited Binary64 := ⟨.nan⟩

/-- The number with the given rank; a rank past infinity is infinity. -/
def ofRank (negative : Bool) (rank : Nat) : Binary64 :=
  .number negative (min rank topRank) (Nat.min_le_right _ _)

def zero : Binary64 := ofRank false 0

def one : Binary64 := ofRank false 0x3ff0000000000000

def infinity (negative : Bool) : Binary64 := ofRank negative topRank

/-- How many units make one. -/
def unitsPerOne : Nat := Nat.pow 2 1074

/-- How many numbers there are from a power of two up to the next: 2^52. -/
def binade : Nat := 0x10000000000000

/-- The value of a rank in units.  Over the first two binades neighbours are one unit apart;
from there on the distance doubles with every binade. -/
def units (rank : Nat) : Nat :=
  let doublings := rank / binade - 1
  (rank - doublings * binade) * Nat.pow 2 doublings

def isNaN : Binary64 → Bool
  | .nan => true
  | .number .. => false

def isFinite : Binary64 → Bool
  | .nan => false
  | .number _ rank _ => rank < topRank

/-- A number whose value is zero, of either sign. -/
def isZero : Binary64 → Bool
  | .nan => false
  | .number _ rank _ => rank == 0

/-- A rank with the sign put in front, so that both zeros become 0. -/
def signedRank (negative : Bool) (rank : Nat) : Int :=
  if negative then -rank else rank

/-- The finite value `signedRank` stands for, in units. -/
def signedUnits (negative : Bool) (rank : Nat) : Int :=
  if negative then -(units rank : Int) else units rank

/-- Order as numbers: not-a-number is below nothing and above nothing, and the zeros are
equal. -/
def lt : Binary64 → Binary64 → Bool
  | .number s a _, .number t b _ => signedRank s a < signedRank t b
  | _, _ => false

def le : Binary64 → Binary64 → Bool
  | .number s a _, .number t b _ => signedRank s a ≤ signedRank t b
  | _, _ => false

/-- Equality as numbers: the zeros are equal and not-a-number differs from itself. -/
def sameValue : Binary64 → Binary64 → Bool
  | .number s a _, .number t b _ => signedRank s a == signedRank t b
  | _, _ => false

def neg : Binary64 → Binary64
  | .nan => .nan
  | .number s rank h => .number (!s) rank h

/-- The bit pattern: the sign bit above the rank. -/
def toBits : Binary64 → Nat
  | .nan => 0x7ff8000000000000
  | .number s rank _ => (if s then signBit else 0) + rank

/-- Patterns above infinity's, in either half, are not numbers. -/
def ofBits (bits : Nat) : Binary64 :=
  let rank := bits % signBit
  if h : rank ≤ topRank then .number (bits / signBit % 2 == 1) rank h else .nan

theorem ofBits_of_mod_eq {bits rank : Nat} (h : rank ≤ topRank) (hm : bits % signBit = rank) :
    ofBits bits = .number (bits / signBit % 2 == 1) rank h := by
  subst hm
  exact dif_pos h

theorem ofBits_toBits (x : Binary64) : ofBits x.toBits = x := by
  cases x with
  | nan => decide
  | number s rank h =>
    have hr : rank < signBit := Nat.lt_of_le_of_lt h (by decide)
    cases s with
    | false =>
      have hd : rank / signBit = 0 := Nat.div_eq_of_lt hr
      have hb : (number false rank h).toBits = rank := Nat.zero_add rank
      rw [hb, ofBits_of_mod_eq h (Nat.mod_eq_of_lt hr), hd]
      rfl
    | true =>
      have hd : (signBit + rank) / signBit = 1 := by
        rw [Nat.add_div_left rank (by decide), Nat.div_eq_of_lt hr]
      have hm : (signBit + rank) % signBit = rank := by
        rw [Nat.add_mod_left, Nat.mod_eq_of_lt hr]
      have hb : (number true rank h).toBits = signBit + rank := rfl
      rw [hb, ofBits_of_mod_eq h hm, hd]
      rfl

end Binary64
end EvalDiff
