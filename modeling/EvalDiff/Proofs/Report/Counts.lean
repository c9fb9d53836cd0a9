import EvalDiff.Proofs.Binary64.Naturals
import EvalDiff.Report.Basic

/-!
# The counts of a report

The counts are doubles that grow by one with every entry.  They stay equal to the numbers of
entries up to 2^53, which is where adding one has no effect any more.
-/

namespace EvalDiff
namespace Report

open Binary64

namespace Tally

/-- The running count of a verdict. -/
def get (t : Tally) : Verdict → Binary64
  | .better => t.better
  | .worse => t.worse
  | .unchanged => t.unchanged

/-- The counts are the given numbers. -/
def Counts (t : Tally) (n : Verdict → Nat) : Prop := ∀ v, IsNat (t.get v) (n v)

theorem get_count_self (t : Tally) (v : Verdict) : (t.count v).get v = t.get v + .one := by
  cases v <;> rfl

theorem get_count_of_ne (t : Tally) {v w : Verdict} (h : w ≠ v) :
    (t.count w).get v = t.get v := by
  cases w <;> cases v <;> first | rfl | exact absurd rfl h

theorem counts_empty : empty.Counts fun _ => 0 := by
  intro v
  cases v <;> exact isNat_zero

variable {t : Tally} {n : Verdict → Nat}

theorem Counts.count (h : t.Counts fun w => min (n w) (2 ^ 53)) (v : Verdict) :
    (t.count v).Counts fun w => min (n w + if v = w then 1 else 0) (2 ^ 53) := by
  intro w
  show IsNat ((t.count v).get w) (min (n w + if v = w then 1 else 0) (2 ^ 53))
  by_cases hw : v = w
  · subst hw
    rw [get_count_self, if_pos rfl]
    exact (h v).add_one_min
  · rw [get_count_of_ne t hw, if_neg hw]
    exact h w

theorem Counts.foldl (h : t.Counts fun w => min (n w) (2 ^ 53)) (entries : List Entry) :
    (entries.foldl (fun t entry => t.count entry.verdict) t).Counts fun v =>
      min (n v + entries.countP (·.verdict == v)) (2 ^ 53) := by
  induction entries generalizing t n with
  | nil => exact h
  | cons entry entries ih =>
    have hcons : ∀ v, n v + (entry :: entries).countP (·.verdict == v) =
        (n v + if entry.verdict = v then 1 else 0) + entries.countP (·.verdict == v) := by
      intro v
      rw [List.countP_cons, Nat.add_comm (entries.countP _), Nat.add_assoc]
      simp only [beq_iff_eq]
    simp only [hcons]
    exact ih (h.count entry.verdict)

/-- However many entries there are, the counts are right up to 2^53 and stay there. -/
theorem counts_ofEntries_min (entries : List Entry) :
    (ofEntries entries).Counts fun v => min (entries.countP (·.verdict == v)) (2 ^ 53) := by
  have hfold := Counts.foldl (n := fun _ => 0) counts_empty entries
  simp only [Nat.zero_add] at hfold
  exact hfold

theorem eq_of_get {t u : Tally} (h : ∀ v, t.get v = u.get v) : t = u := by
  cases t
  cases u
  rw [mk.injEq]
  exact ⟨h .better, h .worse, h .unchanged⟩

/-- The counts do not depend on the order in which the entries are counted, even where they do not
grow any more. -/
theorem ofEntries_eq_of_countP {es fs : List Entry}
    (h : ∀ v, es.countP (·.verdict == v) = fs.countP (·.verdict == v)) :
    ofEntries es = ofEntries fs := by
  refine eq_of_get fun v => ?_
  have hes := counts_ofEntries_min es v
  have hfs := counts_ofEntries_min fs v
  simp only [h] at hes
  exact hes.unique hfs

/-- The floor under the count of worse entries. -/
theorem Counts.summary_worse (h : t.Counts n) : IsNat t.summary.worse (max 1 (n .worse)) := by
  have hworse : IsNat t.worse (n .worse) := h .worse
  show IsNat (if t.worse.isZero then .one else t.worse) _
  by_cases hz : t.worse.isZero = true
  · rw [if_pos hz, hworse.isZero_iff.mp hz]
    exact isNat_one
  · have hpos : 1 ≤ n .worse := Nat.pos_of_ne_zero (mt hworse.isZero_iff.mpr hz)
    rw [if_neg hz, Nat.max_eq_right hpos]
    exact hworse

end Tally

theorem countP_verdict_add (entries : List Entry) :
    entries.countP (·.verdict == .better) + entries.countP (·.verdict == .unchanged) +
      entries.countP (·.verdict == .worse) = entries.length := by
  induction entries with
  | nil => rfl
  | cons entry entries ih =>
    rw [List.length_cons, ← ih, List.countP_cons, List.countP_cons, List.countP_cons]
    cases entry.verdict with
    | better | unchanged | worse => simp; omega

theorem count_le_length (r : Report) (v : Verdict) : r.count v ≤ r.entries.length :=
  List.countP_le_length

theorem hasRegressions_iff (r : Report) : r.hasRegressions = true ↔ 0 < r.count .worse := by
  rw [hasRegressions, List.any_eq_true, count, List.countP_pos_iff]

end Report
end EvalDiff
