import EvalDiff.Proofs.Decimal.Numeral

/-!
# Decimal literals

The grammar of decimal literals, a constructor for each way to write a part of one, and
`numeral?_eq_some_iff`: the texts of the grammar are the ones that are read, each as the numeral it
spells.  Nothing bounds the number of digits, before or after the point or in the exponent.
-/

namespace EvalDiff
namespace Decimal

variable {cs rest sign ds whole fraction : List Char} {negative : Bool} {exponent : Int}
  {n m : Numeral}

/-! ### The grammar -/

/-- A sign or none. -/
inductive SpellsSign : Bool → List Char → Prop where
  | none : SpellsSign false []
  | plus : SpellsSign false ['+']
  | minus : SpellsSign true ['-']

/-- Digits before and after a point.  Without a point none are after it, and with one they may be
missing on one of its sides. -/
inductive SpellsDigits : List Char → List Char → List Char → Prop where
  | plain {whole : List Char} (hne : whole ≠ []) (hwhole : ∀ c ∈ whole, c.isDigit = true) :
    SpellsDigits whole [] whole
  | pointed {whole fraction : List Char} (hne : whole ≠ [] ∨ fraction ≠ [])
    (hwhole : ∀ c ∈ whole, c.isDigit = true) (hfraction : ∀ c ∈ fraction, c.isDigit = true) :
    SpellsDigits whole fraction (whole ++ '.' :: fraction)

/-- An exponent or none. -/
inductive SpellsExponent : Int → List Char → Prop where
  | none : SpellsExponent 0 []
  | letter {c : Char} {negative : Bool} {sign digits : List Char} (hletter : c = 'e' ∨ c = 'E')
    (hsign : SpellsSign negative sign) (hne : digits ≠ [])
    (hdigits : ∀ d ∈ digits, d.isDigit = true) :
    SpellsExponent (if negative then -(natOfDigits digits : Int) else natOfDigits digits)
      (c :: (sign ++ digits))

/-- A text is a literal of a numeral. -/
inductive Spells : Numeral → List Char → Prop where
  | parts {negative : Bool} {exponent : Int} {sign whole fraction ds es : List Char}
    (hsign : SpellsSign negative sign) (hdigits : SpellsDigits whole fraction ds)
    (hexponent : SpellsExponent exponent es) :
    Spells ⟨negative, whole, fraction, exponent⟩ (sign ++ (ds ++ es))

/-- Digits with a point between them if there are some after it. -/
theorem spellsDigits_pointed (hne : whole ≠ []) (hwhole : ∀ c ∈ whole, c.isDigit = true)
    (hfraction : ∀ c ∈ fraction, c.isDigit = true) :
    SpellsDigits whole fraction (pointed whole fraction) := by
  rw [pointed]
  split
  case isTrue hnil =>
    rw [hnil]
    exact .plain hne hwhole
  case isFalse => exact .pointed (.inl hne) hwhole hfraction

/-! ### Literals are read -/

theorem SpellsSign.readSign (h : SpellsSign negative sign)
    (hrest : ∀ c ∈ rest.head?, c.isDigit = true ∨ c = '.') :
    readSign (sign ++ rest) = (negative, rest) := by
  cases h with
  | plus => rfl
  | minus => rfl
  | none =>
    cases rest with
    | nil => rfl
    | cons c rest =>
      rcases hrest c rfl with hc | rfl
      · exact readSign_of_isDigit hc rest
      · rfl

theorem SpellsDigits.head? (h : SpellsDigits whole fraction ds) :
    ∃ c ∈ ds.head?, c.isDigit = true ∨ c = '.' := by
  cases h with
  | plain hne hwhole =>
    obtain ⟨c, cs, rfl⟩ := List.exists_cons_of_ne_nil hne
    exact ⟨c, rfl, .inl (hwhole c List.mem_cons_self)⟩
  | pointed hne hwhole =>
    cases whole with
    | nil => exact ⟨'.', rfl, .inr rfl⟩
    | cons c whole => exact ⟨c, rfl, .inl (hwhole c List.mem_cons_self)⟩

/-- What follows the digits does not continue them. -/
theorem SpellsExponent.head? (h : SpellsExponent exponent cs) :
    ∀ c ∈ cs.head?, c.isDigit = false ∧ c ≠ '.' := by
  intro c hc
  cases h with
  | none => cases hc
  | letter hletter =>
    cases hc
    rcases hletter with rfl | rfl <;> decide

theorem spanDigits_append (hds : ∀ c ∈ ds, c.isDigit = true)
    (hrest : ∀ c ∈ rest.head?, c.isDigit = false) : spanDigits (ds ++ rest) = (ds, rest) :=
  Text.Reader.span_append hds hrest

theorem SpellsExponent.readExponent (h : SpellsExponent exponent cs) :
    readExponent cs = some (exponent, []) := by
  cases h with
  | none => rfl
  | @letter c negative sign digits hletter hsign hne hdigits =>
    obtain ⟨d, ds, rfl⟩ := List.exists_cons_of_ne_nil hne
    have hspan : spanDigits (d :: ds) = (d :: ds, []) := by
      have happend : spanDigits (d :: ds ++ []) = (d :: ds, []) :=
        spanDigits_append hdigits (by simp)
      rwa [List.append_nil] at happend
    have hread : Decimal.readSign (sign ++ d :: ds) = (negative, d :: ds) := by
      apply hsign.readSign
      intro e he
      cases he
      exact .inl (hdigits d List.mem_cons_self)
    simp only [Decimal.readExponent, if_pos hletter, hread, hspan]

theorem SpellsDigits.readUnsigned (h : SpellsDigits whole fraction ds)
    (hexponent : SpellsExponent exponent rest) (negative : Bool) :
    readUnsigned negative (ds ++ rest) = some (⟨negative, whole, fraction, exponent⟩, []) := by
  have hdigit : ∀ c ∈ rest.head?, c.isDigit = false := fun c hc => (hexponent.head? c hc).1
  have hpoint : ∀ c ∈ rest.head?, c ≠ '.' := fun c hc => (hexponent.head? c hc).2
  have hread := hexponent.readExponent
  cases h with
  | plain hne hwhole =>
    simp [Decimal.readUnsigned, spanDigits_append hwhole hdigit, readFraction_of_ne hpoint, hread,
      hne]
  | pointed hne hwhole hfraction =>
    have hspan : spanDigits (whole ++ '.' :: (fraction ++ rest)) =
        (whole, '.' :: (fraction ++ rest)) := by
      apply spanDigits_append hwhole
      intro c hc
      cases hc
      rfl
    have hspan' : readFraction ('.' :: (fraction ++ rest)) = (fraction, rest) :=
      spanDigits_append hfraction hdigit
    have hempty : (whole.isEmpty && fraction.isEmpty) = false := by
      rcases hne with hne | hne <;> simp [hne]
    rw [List.append_assoc, List.cons_append]
    simp [Decimal.readUnsigned, hspan, hspan', hempty, hread]

/-- After the sign a literal begins with a digit or the point. -/
theorem Spells.exists_readSign (h : Spells n cs) :
    ∃ rest, readSign cs = (n.negative, rest) ∧ readUnsigned n.negative rest = some (n, []) ∧
      ∃ c ∈ rest.head?, c.isDigit = true ∨ c = '.' := by
  cases h with
  | @parts negative _ sign _ _ ds es hsign hdigits hexponent =>
    obtain ⟨c, hc, hclass⟩ := hdigits.head?
    have hhead := List.mem_head?_append_of_mem_head? (t := es) hc
    have hread : readSign (sign ++ (ds ++ es)) = (negative, ds ++ es) := by
      apply hsign.readSign
      intro d hd
      rw [hhead] at hd
      cases hd
      exact hclass
    exact ⟨ds ++ es, hread, hdigits.readUnsigned hexponent negative, c, hhead, hclass⟩

theorem Spells.numeral?_eq (h : Spells n cs) : numeral? cs = some n := by
  obtain ⟨rest, hsign, hread, -⟩ := h.exists_readSign
  simp only [numeral?, hsign, hread]

/-- A text is the literal of one numeral at most. -/
theorem Spells.unique (h : Spells n cs) (h' : Spells m cs) : n = m :=
  Option.some.inj (h.numeral?_eq.symm.trans h'.numeral?_eq)

/-! ### What is read is a literal -/

theorem exists_spellsSign (h : readSign cs = (negative, rest)) :
    ∃ sign, SpellsSign negative sign ∧ cs = sign ++ rest := by
  unfold readSign at h
  split at h <;> cases h
  · exact ⟨['-'], .minus, rfl⟩
  · exact ⟨['+'], .plus, rfl⟩
  · exact ⟨[], .none, rfl⟩

theorem spanDigits_eq (h : spanDigits cs = (ds, rest)) :
    cs = ds ++ rest ∧ ∀ c ∈ ds, c.isDigit = true := by
  rw [spanDigits, List.span_eq_takeWhile_dropWhile, Prod.mk.injEq] at h
  obtain ⟨rfl, rfl⟩ := h
  exact ⟨List.takeWhile_append_dropWhile.symm, fun c hc => List.mem_takeWhile_imp hc⟩

theorem spellsExponent_of_readExponent (h : readExponent cs = some (exponent, [])) :
    SpellsExponent exponent cs := by
  cases cs with
  | nil =>
    cases h
    exact .none
  | cons c cs =>
    rw [readExponent] at h
    split at h
    case isFalse => cases h
    case isTrue hletter =>
      obtain ⟨⟨negative, after⟩, hread⟩ : ∃ p, readSign cs = p := ⟨_, rfl⟩
      obtain ⟨sign, hsign, rfl⟩ := exists_spellsSign hread
      simp only [hread] at h
      split at h
      case h_1 => cases h
      case h_2 digits rest hne hspan =>
        obtain ⟨rfl, hdigits⟩ := spanDigits_eq hspan
        cases h
        rw [List.append_nil]
        exact .letter hletter hsign hne hdigits

/-- A fraction part begins with a point, or there is none. -/
theorem readFraction_eq (h : readFraction cs = (fraction, rest)) :
    (cs = '.' :: (fraction ++ rest) ∧ ∀ c ∈ fraction, c.isDigit = true) ∨
      (cs = rest ∧ fraction = []) := by
  unfold readFraction at h
  split at h
  case h_1 cs =>
    obtain ⟨hcs, hfraction⟩ := spanDigits_eq h
    exact .inl ⟨by rw [hcs], hfraction⟩
  case h_2 =>
    cases h
    exact .inr ⟨rfl, rfl⟩

theorem exists_of_readUnsigned (h : readUnsigned negative cs = some (n, [])) :
    ∃ whole fraction exponent ds es, n = ⟨negative, whole, fraction, exponent⟩ ∧ cs = ds ++ es ∧
      SpellsDigits whole fraction ds ∧ SpellsExponent exponent es := by
  obtain ⟨⟨whole, rest⟩, hspan⟩ : ∃ p, spanDigits cs = p := ⟨_, rfl⟩
  obtain ⟨⟨fraction, es⟩, hfraction⟩ : ∃ p, readFraction rest = p := ⟨_, rfl⟩
  obtain ⟨rfl, hwhole⟩ := spanDigits_eq hspan
  simp only [readUnsigned, hspan, hfraction] at h
  split at h
  case isTrue => cases h
  case isFalse hempty =>
    simp only [Bool.and_eq_true, List.isEmpty_iff, not_and_or] at hempty
    split at h
    case h_1 => cases h
    case h_2 exponent rest' hexponent =>
      cases h
      have hspells := spellsExponent_of_readExponent hexponent
      rcases readFraction_eq hfraction with ⟨rfl, hdigits⟩ | ⟨rfl, rfl⟩
      · refine ⟨whole, fraction, exponent, _, es, rfl, ?_, .pointed hempty hwhole hdigits, hspells⟩
        rw [List.append_assoc, List.cons_append]
      · exact ⟨whole, [], exponent, whole, rest, rfl, rfl, .plain (by simpa using hempty) hwhole,
          hspells⟩

/-- The literals are the texts that are read. -/
theorem numeral?_eq_some_iff : numeral? cs = some n ↔ Spells n cs := by
  refine ⟨fun h => ?_, Spells.numeral?_eq⟩
  obtain ⟨⟨negative, rest⟩, hread⟩ : ∃ p, readSign cs = p := ⟨_, rfl⟩
  obtain ⟨sign, hsign, rfl⟩ := exists_spellsSign hread
  simp only [numeral?, hread] at h
  split at h
  case h_2 => cases h
  case h_1 hunsigned =>
    cases h
    obtain ⟨whole, fraction, exponent, ds, es, rfl, rfl, hdigits, hexponent⟩ :=
      exists_of_readUnsigned hunsigned
    exact .parts hsign hdigits hexponent

theorem Spells.isDigit (h : Spells n cs) : ∀ c ∈ n.whole ++ n.fraction, c.isDigit = true := by
  intro c hc
  cases h with
  | parts _ hdigits =>
    cases hdigits with
    | plain _ hwhole => exact hwhole c (by simpa using hc)
    | pointed _ hwhole hfraction => exact (List.mem_append.mp hc).elim (hwhole c) (hfraction c)

end Decimal
end EvalDiff
