import EvalDiff.Text.Reader
import Mathlib.Data.List.TakeDrop

/-!
# What readers do at the front of a text

The lemmas for sequences and alternatives take a reader apart into its parts, each applied to
what the one before has left.  `Scans` follows `Reader.untilClose` from turn to turn and `Turns`
follows `Reader.many`, so that the budget of the loops is dealt with once.
-/

namespace EvalDiff
namespace Text
namespace Reader

variable {α β : Type}

/-- Turns of a reader up to where another one succeeds, each of which takes something. -/
inductive Scans (close : Reader β) (r : Reader α) :
    List Char → List α → β → List Char → Prop where
  | done {cs rest : List Char} {b : β} (h : close cs = some (b, rest)) :
    Scans close r cs [] b rest
  | turn {cs cs' rest : List Char} {a : α} {as : List α} {b : β} (hclose : close cs = none)
    (hturn : r cs = some (a, cs')) (hshort : cs'.length < cs.length)
    (h : Scans close r cs' as b rest) : Scans close r cs (a :: as) b rest

/-- Turns of a reader up to where it fails, each of which takes something. -/
inductive Turns (r : Reader α) : List Char → List α → List Char → Prop where
  | done {cs : List Char} (h : r cs = none) : Turns r cs [] cs
  | turn {cs cs' rest : List Char} {a : α} {as : List α} (hturn : r cs = some (a, cs'))
    (hshort : cs'.length < cs.length) (h : Turns r cs' as rest) : Turns r cs (a :: as) rest

variable {cs ds rest : List Char} {a : α} {b : β} {as : List α}

theorem bind_eq_of_eq {r : Reader α} (f : α → Reader β) (h : r cs = some (a, rest)) :
    (r >>= f) cs = f a rest := by
  show (r cs).bind (fun p => f p.1 p.2) = f a rest
  rw [h, Option.bind_some]

theorem bind_eq_none {r : Reader α} (f : α → Reader β) (h : r cs = none) :
    (r >>= f) cs = none := by
  show (r cs).bind (fun p => f p.1 p.2) = none
  rw [h, Option.bind_none]

theorem map_eq_of_eq {r : Reader α} (f : α → β) (h : r cs = some (a, rest)) :
    (f <$> r) cs = some (f a, rest) := by
  show (r cs).bind (fun p => some (f p.1, p.2)) = some (f a, rest)
  rw [h, Option.bind_some]

theorem orElse_eq_of_eq {r : Reader α} (r' : Reader α) (h : r cs = some (a, rest)) :
    (r <|> r') cs = some (a, rest) := by
  show (r cs).orElse (fun _ => r' cs) = some (a, rest)
  rw [h, Option.orElse_some]

theorem orElse_eq_of_none {r : Reader α} (r' : Reader α) (h : r cs = none) :
    (r <|> r') cs = r' cs := by
  show (r cs).orElse (fun _ => r' cs) = r' cs
  rw [h, Option.orElse_none]

theorem satisfy_cons {p : Char → Bool} {c : Char} (h : p c = true) (cs : List Char) :
    satisfy p (c :: cs) = some (c, cs) := if_pos h

theorem char_cons (c : Char) (cs : List Char) : char c (c :: cs) = some ((), cs) := if_pos rfl

theorem char_cons_of_ne {c d : Char} (h : d ≠ c) (cs : List Char) : char c (d :: cs) = none :=
  if_neg h

theorem peek_cons (c : Char) (cs : List Char) : peek (c :: cs) = some (some c, c :: cs) := rfl

/-- A run ends where a character of another class follows. -/
theorem span_append {p : Char → Bool} (h : ∀ c ∈ ds, p c = true)
    (hrest : ∀ c ∈ rest.head?, p c = false) : (ds ++ rest).span p = (ds, rest) := by
  have hstop : rest.takeWhile p = [] ∧ rest.dropWhile p = rest := by
    cases rest with
    | nil => exact ⟨rfl, rfl⟩
    | cons c rest => simp [hrest c rfl]
  rw [List.span_eq_takeWhile_dropWhile, List.takeWhile_append_of_pos h,
    List.dropWhile_append_of_pos h, hstop.1, hstop.2, List.append_nil]

theorem span1_append {p : Char → Bool} (hne : ds ≠ []) (h : ∀ c ∈ ds, p c = true)
    (hrest : ∀ c ∈ rest.head?, p c = false) : span1 p (ds ++ rest) = some (ds, rest) := by
  rw [span1, span_append h hrest]
  cases ds with
  | nil => exact absurd rfl hne
  | cons c ds => rfl

theorem many_eq_nil {r : Reader α} (h : r cs = none) : many r cs = some ([], cs) := by
  cases cs with
  | nil => rfl
  | cons c cs =>
    rw [many, manyWithin]
    simp [h]

variable {close : Reader β} {r : Reader α}

theorem Scans.untilWithin {budget : List Char} (h : Scans close r cs as b rest)
    (hbudget : cs.length ≤ budget.length) :
    untilWithin close r budget cs = some ((as, b), rest) := by
  induction h generalizing budget with
  | done h => cases budget <;> simp [Reader.untilWithin, h]
  | turn hclose hturn hshort _ ih =>
    cases budget with
    | nil => exact absurd hshort (by simp_all)
    | cons d budget =>
      have hrest := @ih budget (by simp at hbudget; omega)
      simp [Reader.untilWithin, hclose, hturn, hrest]

theorem Scans.untilClose (h : Scans close r cs as b rest) :
    untilClose close r cs = some ((as, b), rest) :=
  h.untilWithin (Nat.le_refl _)

theorem Turns.manyWithin {budget : List Char} (h : Turns r cs as rest)
    (hbudget : cs.length ≤ budget.length) : manyWithin r budget cs = some (as, rest) := by
  induction h generalizing budget with
  | done h =>
    cases budget with
    | nil => rfl
    | cons d budget => simp [Reader.manyWithin, h]
  | turn hturn hshort _ ih =>
    cases budget with
    | nil => exact absurd hshort (by simp_all)
    | cons d budget =>
      have hrest := @ih budget (by simp at hbudget; omega)
      simp [Reader.manyWithin, hturn, hrest]

theorem Turns.many (h : Turns r cs as rest) : many r cs = some (as, rest) :=
  h.manyWithin (Nat.le_refl _)

variable {gap : Reader Unit} {item : Reader α} {last : Char}

theorem items_eq_nil (hgap : gap cs = some ((), last :: rest)) (trailing : Bool) :
    items gap trailing item last cs = some ([], rest) := by
  rw [items, bind_eq_of_eq _ hgap, bind_eq_of_eq _ (peek_cons _ _), if_pos rfl,
    bind_eq_of_eq _ (char_cons _ _)]
  rfl

/-- The first item, the others each with a comma before it, and the closing character. -/
theorem items_eq_cons {text more after : List Char} (hgap : gap cs = some ((), text))
    (hfirst : text.head? ≠ some last) (hitem : item text = some (a, more))
    (hmore : Turns (do gap; char ','; gap; item) more as after)
    (hlast : gap after = some ((), last :: rest)) :
    items gap false item last cs = some (a :: as, rest) := by
  have hpeek : peek text = some (text.head?, text) := rfl
  rw [items, bind_eq_of_eq _ hgap, bind_eq_of_eq _ hpeek, if_neg hfirst, bind_eq_of_eq _ hitem,
    bind_eq_of_eq _ hmore.many, bind_eq_of_eq _ hlast, bind_eq_of_eq _ (peek_cons _ _),
    if_neg fun h => Bool.false_ne_true h.1]
  exact bind_eq_of_eq _ (char_cons last rest)

end Reader
end Text
end EvalDiff
