import EvalDiff.Json.Reader
import EvalDiff.Json.Writer
import EvalDiff.Proofs.Text.Reader

/-!
# JSON numbers read back

The reader takes every character that can belong to a number, so a number is read back as it was
written if what follows cannot belong to it.
-/

namespace EvalDiff
namespace Json

open Text Reader

/-- Digits, of which there is at least one. -/
def IsDigits (ds : List Char) : Prop := ds ≠ [] ∧ ∀ c ∈ ds, c.isDigit = true

/-- A number as the grammar has it. -/
structure Number.Proper (n : Number) : Prop where
  whole : IsDigits n.whole
  leading : n.whole.head? = some '0' → n.whole.length = 1
  fraction : ∀ ds ∈ n.fraction, IsDigits ds
  exponent : ∀ e ∈ n.exponent, IsDigits e.2

/-- What follows a number and cannot belong to it. -/
def EndsNumber (rest : List Char) : Prop :=
  ∀ c ∈ rest.head?, c.isDigit = false ∧ c ≠ '.' ∧ c ≠ 'e' ∧ c ≠ 'E'

variable {ds rest : List Char}

theorem IsDigits.exists_cons (h : IsDigits ds) : ∃ c cs, ds = c :: cs ∧ c.isDigit = true := by
  cases ds with
  | nil => exact absurd rfl h.1
  | cons c cs => exact ⟨c, cs, rfl, h.2 c List.mem_cons_self⟩

theorem span1_digits (h : IsDigits ds) (hrest : ∀ c ∈ rest.head?, c.isDigit = false) :
    span1 Char.isDigit (ds ++ rest) = some (ds, rest) :=
  span1_append h.1 h.2 hrest

theorem wholeDigits_append (h : IsDigits ds) (hlead : ds.head? = some '0' → ds.length = 1)
    (hrest : ∀ c ∈ rest.head?, c.isDigit = false) :
    wholeDigits (ds ++ rest) = some (ds, rest) := by
  rw [wholeDigits, bind_eq_of_eq _ (span1_digits h hrest),
    if_neg fun hzero => hzero.2 (hlead hzero.1)]
  rfl

/-- The text of a fraction. -/
def fractionText : Option (List Char) → List Char
  | none => []
  | some ds => '.' :: ds

/-- The text of an exponent. -/
def exponentText : Option (Bool × List Char) → List Char
  | none => []
  | some (negative, ds) => 'e' :: (if negative then '-' else '+') :: ds

theorem Number.write_eq (n : Number) :
    n.write =
      (if n.negative then ['-'] else []) ++ n.whole ++ fractionText n.fraction ++
        exponentText n.exponent := rfl

theorem fraction_append {f : Option (List Char)} (h : ∀ ds ∈ f, IsDigits ds)
    (hrest : ∀ c ∈ rest.head?, c.isDigit = false ∧ c ≠ '.') :
    fraction (fractionText f ++ rest) = some (f, rest) := by
  cases f with
  | none =>
    rw [fractionText, List.nil_append, fraction]
    cases rest with
    | nil => rfl
    | cons c cs =>
      rw [bind_eq_of_eq _ (peek_cons c cs), if_neg]
      · rfl
      · intro hc
        cases hc
        exact (hrest '.' rfl).2 rfl
  | some ds =>
    have hdigits := span1_digits (h ds rfl) fun c hc => (hrest c hc).1
    rw [fractionText, List.cons_append, fraction, bind_eq_of_eq _ (peek_cons _ _), if_pos rfl,
      bind_eq_of_eq _ (char_cons _ _), bind_eq_of_eq _ hdigits]
    rfl

theorem exponent_append {e : Option (Bool × List Char)} (h : ∀ p ∈ e, IsDigits p.2)
    (hrest : EndsNumber rest) : exponent (exponentText e ++ rest) = some (e, rest) := by
  cases e with
  | none =>
    rw [exponentText, List.nil_append, exponent]
    cases rest with
    | nil => rfl
    | cons c cs =>
      have hc := hrest c rfl
      rw [bind_eq_of_eq _ (peek_cons c cs)]
      dsimp only
      rw [if_neg (by simp [hc])]
      rfl
  | some p =>
    obtain ⟨negative, ds⟩ := p
    have hdigits := span1_digits (h _ rfl) fun c hc => (hrest c hc).1
    rw [exponentText, List.cons_append, List.cons_append, exponent,
      bind_eq_of_eq _ (peek_cons _ _)]
    dsimp only
    rw [if_pos (Or.inl rfl), bind_eq_of_eq _ (char_cons _ _), bind_eq_of_eq _ (peek_cons _ _)]
    cases negative with
    | true =>
      rw [if_pos rfl, if_pos rfl, bind_eq_of_eq _ (char_cons _ _), bind_eq_of_eq _ hdigits]
      rfl
    | false =>
      rw [if_neg (by decide), if_neg Bool.false_ne_true, if_pos rfl,
        bind_eq_of_eq _ (char_cons _ _), bind_eq_of_eq _ hdigits]
      rfl

theorem EndsNumber.exponentText {e : Option (Bool × List Char)} (hrest : EndsNumber rest) :
    ∀ c ∈ (Json.exponentText e ++ rest).head?, c.isDigit = false ∧ c ≠ '.' := by
  intro c hc
  cases e with
  | none => exact ⟨(hrest c hc).1, (hrest c hc).2.1⟩
  | some p =>
    cases hc
    decide

theorem EndsNumber.fractionText {f : Option (List Char)} {e : Option (Bool × List Char)}
    (hrest : EndsNumber rest) :
    ∀ c ∈ (Json.fractionText f ++ (Json.exponentText e ++ rest)).head?, c.isDigit = false := by
  intro c hc
  cases f with
  | none => exact (hrest.exponentText c hc).1
  | some ds =>
    cases hc
    decide

/-- The digits, the fraction and the exponent, once the sign is read. -/
theorem unsigned_append {n : Number} (h : n.Proper) (hrest : EndsNumber rest) {negative : Bool}
    (hsign : negative = n.negative) :
    (do return { negative, whole := ← wholeDigits, fraction := ← fraction
                 exponent := ← exponent } : Reader Number)
        (n.whole ++ (fractionText n.fraction ++ (exponentText n.exponent ++ rest))) =
      some (n, rest) := by
  rw [bind_eq_of_eq _ (wholeDigits_append h.whole h.leading hrest.fractionText),
    bind_eq_of_eq _ (fraction_append h.fraction hrest.exponentText),
    bind_eq_of_eq _ (exponent_append h.exponent hrest), hsign]
  rfl

theorem number_write {n : Number} (h : n.Proper) (hrest : EndsNumber rest) :
    number (n.write ++ rest) = some (n, rest) := by
  obtain ⟨c, cs, hwhole, hdigit⟩ := h.whole.exists_cons
  rw [Number.write_eq, List.append_assoc, List.append_assoc, List.append_assoc, number]
  cases hn : n.negative with
  | true =>
    rw [if_pos rfl, List.singleton_append, bind_eq_of_eq _ (peek_cons _ _)]
    dsimp only
    rw [if_pos rfl, bind_eq_of_eq _ (char_cons _ _)]
    exact unsigned_append h hrest hn.symm
  | false =>
    have hminus : ¬ some c = some '-' := by
      rintro ⟨⟩
      exact absurd hdigit (by decide)
    have hpeek := peek_cons c (cs ++ (fractionText n.fraction ++ (exponentText n.exponent ++ rest)))
    rw [← List.cons_append, ← hwhole] at hpeek
    rw [if_neg (by decide), List.nil_append, bind_eq_of_eq _ hpeek]
    dsimp only
    rw [if_neg hminus]
    exact unsigned_append h hrest (by rw [hn, decide_eq_false hminus])

end Json
end EvalDiff
