import EvalDiff.Verdict

/-!
# Verdicts and the order of values
-/

namespace EvalDiff

theorem Binary64.not_lt_of_lt {x y : Binary64} (h : x.lt y = true) : y.lt x = false := by
  cases x with
  | nan => cases h
  | number s a ha =>
    cases y with
    | nan => cases h
    | number t b hb =>
      simp only [lt, decide_eq_true_iff, decide_eq_false_iff_not] at h ⊢
      omega

namespace Verdict

theorem ofValues_eq_worse_iff (x y : Binary64) : ofValues x y = .worse ↔ y.lt x = true := by
  unfold ofValues
  split
  · rename_i h
    simp [h]
  · rename_i h
    split <;> simp [h]

theorem ofValues_eq_better_iff (x y : Binary64) : ofValues x y = .better ↔ x.lt y = true := by
  unfold ofValues
  split
  · rename_i h
    simp [Binary64.not_lt_of_lt h]
  · split
    · rename_i h
      simp [h]
    · rename_i h
      simp [h]

end Verdict
end EvalDiff
