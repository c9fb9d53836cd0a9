import Mathlib.Data.List.Chain
import Mathlib.Data.List.DropRight
import Mathlib.Data.List.Forall2

/-!
# Lists and results

Facts about lists, about searches in them and about results with errors that are not about logs or
reports.
-/

namespace EvalDiff

variable {α β ε : Type}

theorem exists_ok_of_isOk {x : Except ε α} (h : x.isOk = true) : ∃ a, x = .ok a := by
  cases x with
  | error e => cases h
  | ok a => exact ⟨a, rfl⟩

/-- What is computed from a value that there may be is computed from a value that there is. -/
theorem exists_ok_of_map {x : Except ε α} {f : α → β} {b : β}
    (h : x.toOption.map f = some b) : ∃ a, x = .ok a ∧ f a = b := by
  cases x with
  | error e => cases h
  | ok a => exact ⟨a, rfl, Option.some.inj h⟩

theorem filterMap_cons_toList (f : α → Option β) (a : α) (l : List α) :
    (a :: l).filterMap f = (f a).toList ++ l.filterMap f := by
  cases h : f a <;> simp [h]

theorem mapM_eq_some_iff {f : α → Option β} {as : List α} {bs : List β} :
    as.mapM f = some bs ↔ List.Forall₂ (fun a b => f a = some b) as bs := by
  induction as generalizing bs with
  | nil =>
    rw [List.mapM_nil, List.forall₂_nil_left_iff]
    exact ⟨fun h => (Option.some.inj h).symm, fun h => congrArg some h.symm⟩
  | cons a as ih =>
    rw [List.mapM_cons, List.forall₂_cons_left_iff]
    simp only [Option.bind_eq_bind, Option.bind_eq_some_iff, Option.pure_def, Option.some.injEq]
    constructor
    · rintro ⟨b, hb, bs', hbs, rfl⟩
      exact ⟨b, bs', hb, ih.mp hbs, rfl⟩
    · rintro ⟨b, bs', hb, hbs, rfl⟩
      exact ⟨b, hb, bs', ih.mpr hbs, rfl⟩

theorem exists_forall₂_iff {p : α → β → Prop} {as : List α} :
    (∃ bs, List.Forall₂ p as bs) ↔ ∀ a ∈ as, ∃ b, p a b := by
  induction as with
  | nil => exact ⟨fun _ _ ha => absurd ha List.not_mem_nil, fun _ => ⟨[], .nil⟩⟩
  | cons a as ih =>
    rw [List.forall_mem_cons, ← ih]
    constructor
    · rintro ⟨_, h⟩
      cases h with
      | cons hb hbs => exact ⟨⟨_, hb⟩, _, hbs⟩
    · rintro ⟨⟨b, hb⟩, bs, hbs⟩
      exact ⟨b :: bs, .cons hb hbs⟩

theorem toList_head? {l : List α} (h : l.length ≤ 1) : l.head?.toList = l := by
  match l, h with
  | [], _ => rfl
  | [a], _ => rfl

/-- Of what came before, only the last one can clash with what follows. -/
theorem isChain_getLast?_append {r : α → α → Prop} {l : List α} (h : l.IsChain r) (l' : List α) :
    (l.getLast?.toList ++ l').IsChain r ↔ (l ++ l').IsChain r := by
  rw [List.isChain_append, List.isChain_append]
  cases l.getLast? <;> simp [h]

theorem getLast?_getLast?_append (l l' : List α) :
    (l.getLast?.toList ++ l').getLast? = (l ++ l').getLast? := by
  rw [List.getLast?_append, List.getLast?_append]
  cases l.getLast? <;> simp

theorem rtakeWhile_append_cons {p : α → Bool} {a : α} {l' : List α} (ha : p a = false)
    (h : ∀ b ∈ l', p b = true) (l : List α) : (l ++ a :: l').rtakeWhile p = l' := by
  have hreverse : ∀ b ∈ l'.reverse, p b = true := fun b hb => h b (List.mem_reverse.mp hb)
  rw [List.rtakeWhile, List.reverse_append, List.reverse_cons, List.append_assoc,
    List.takeWhile_append_of_pos hreverse, List.singleton_append,
    List.takeWhile_cons_of_neg (by simp [ha]), List.append_nil, List.reverse_reverse]

section

variable {f : Nat → Option α} {a : α} {start length i : Nat}

/-- The first number of a run that a search succeeds on. -/
theorem findSome?_range'_eq_some (h : (List.range' start length).findSome? f = some a) :
    ∃ i, start ≤ i ∧ i < start + length ∧ f i = some a ∧ ∀ j, start ≤ j → j < i → f j = none := by
  induction length generalizing start with
  | zero => cases h
  | succ length ih =>
    rw [List.range'_succ, List.findSome?_cons] at h
    split at h
    case h_1 hfirst =>
      cases h
      exact ⟨start, Nat.le_refl _, by omega, hfirst, fun j hj hlt => by omega⟩
    case h_2 hfirst =>
      obtain ⟨i, hi, hlt, hfound, hbefore⟩ := ih h
      refine ⟨i, by omega, by omega, hfound, fun j hj hji => ?_⟩
      rcases Nat.eq_or_lt_of_le hj with rfl | hj
      · exact hfirst
      · exact hbefore j hj hji

theorem findSome?_range'_eq_none (h : (List.range' start length).findSome? f = none)
    (hi : start ≤ i) (hlt : i < start + length) : f i = none :=
  List.findSome?_eq_none_iff.mp h i (List.mem_range'_1.mpr ⟨hi, hlt⟩)

end

end EvalDiff
