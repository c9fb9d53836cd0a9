/-!
# Rounding a quotient to an integer

Every inexact result of the library, binary or decimal, is one exact quotient of natural
numbers rounded once by `roundHalfEven`.  The main statements say that the result is within
half a unit of the quotient and that an exact quotient is kept.
-/

namespace EvalDiff
namespace Decimal

/-- The integer nearest to `num / den`.  A quotient half way between two integers goes to the
even one. -/
def roundHalfEven (num den : Nat) : Nat :=
  let q := num / den
  let r := num % den
  if 2 * r < den then q
  else if den < 2 * r then q + 1
  else q + q % 2

theorem roundHalfEven_mul (q : Nat) {den : Nat} (h : 0 < den) :
    roundHalfEven (q * den) den = q := by
  simp [roundHalfEven, Nat.mul_div_cancel _ h, h]

theorem div_le_roundHalfEven (num den : Nat) : num / den ≤ roundHalfEven num den := by
  simp only [roundHalfEven]
  split
  · exact Nat.le_refl _
  · split <;> omega

theorem roundHalfEven_le_succ (num den : Nat) : roundHalfEven num den ≤ num / den + 1 := by
  simp only [roundHalfEven]
  split
  · omega
  · split <;> omega

/-- The result exceeds the quotient by at most one half. -/
theorem two_mul_roundHalfEven_mul_le (num : Nat) {den : Nat} (h : 0 < den) :
    2 * (roundHalfEven num den * den) ≤ 2 * num + den := by
  have hq : den * (num / den) + num % den = num := Nat.div_add_mod num den
  have hr : num % den < den := Nat.mod_lt _ h
  have hc : num / den * den = den * (num / den) := Nat.mul_comm _ _
  simp only [roundHalfEven]
  split
  · omega
  · split
    · rw [Nat.add_mul, Nat.one_mul]; omega
    · have hm : num / den % 2 = 0 ∨ num / den % 2 = 1 := by omega
      rcases hm with hm | hm <;> rw [hm, Nat.add_mul] <;> omega

/-- The quotient exceeds the result by at most one half. -/
theorem two_mul_le_roundHalfEven_mul (num : Nat) {den : Nat} (h : 0 < den) :
    2 * num ≤ 2 * (roundHalfEven num den * den) + den := by
  have hq : den * (num / den) + num % den = num := Nat.div_add_mod num den
  have hr : num % den < den := Nat.mod_lt _ h
  have hc : num / den * den = den * (num / den) := Nat.mul_comm _ _
  simp only [roundHalfEven]
  split
  · omega
  · split
    · rw [Nat.add_mul, Nat.one_mul]; omega
    · have hm : num / den % 2 = 0 ∨ num / den % 2 = 1 := by omega
      rcases hm with hm | hm <;> rw [hm, Nat.add_mul] <;> omega

end Decimal
end EvalDiff
