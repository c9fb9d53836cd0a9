import EvalDiff.Json.Reader
import EvalDiff.Json.Writer
import EvalDiff.Proofs.Text.Reader

/-!
# JSON strings read back

A string is read in two steps, first the code points that its escapes name and then the characters
that the code points make.  What was written from characters has no surrogates, so the second step
joins nothing.
-/

namespace EvalDiff
namespace Json

open Text Reader

theorem hexDigit?_digitChar : ∀ n < 16, hexDigit? (Nat.digitChar n) = some n := by decide

theorem hexValue?_digitChars {n : Nat} (h : n < 256) :
    hexValue? ['0', '0', Nat.digitChar (n / 16), Nat.digitChar (n % 16)] = some n := by
  have hzero : hexDigit? '0' = some 0 := rfl
  have hsum : n / 16 * 16 + n % 16 = n := by omega
  simp [hexValue?, hzero, hexDigit?_digitChar (n / 16) (by omega),
    hexDigit?_digitChar (n % 16) (by omega), hsum]

/-- A character that needs no escape stands for itself. -/
theorem stringUnits_cons {c : Char} (hquote : c ≠ '"') (hslash : c ≠ '\\')
    (hcontrol : ¬ c.toNat < 0x20) (cs : List Char) :
    stringUnits (c :: cs) = (stringUnits cs).map fun p => (c.toNat :: p.1, p.2) := by
  rw [stringUnits]
  · rw [if_neg hcontrol]
    cases stringUnits cs <;> rfl
  · exact fun h => hquote h
  · intro _ _ _ _ _ h
    exact absurd h hslash
  · intro _ _ h
    exact absurd h hslash

theorem stringUnits_shortEscape {letter c : Char} (h : shortEscape? letter = some c)
    (cs : List Char) :
    stringUnits ('\\' :: letter :: cs) = (stringUnits cs).map fun p => (c.toNat :: p.1, p.2) := by
  rw [stringUnits]
  · rw [h]
    cases stringUnits cs <;> rfl
  · rintro _ _ _ _ _ rfl
    cases h

theorem stringUnits_codePoint {n : Nat} (h : n < 256) (cs : List Char) :
    stringUnits
        ('\\' :: 'u' :: '0' :: '0' :: Nat.digitChar (n / 16) :: Nat.digitChar (n % 16) :: cs) =
      (stringUnits cs).map fun p => (n :: p.1, p.2) := by
  rw [stringUnits, hexValue?_digitChars h]
  cases stringUnits cs <;> rfl

theorem stringUnits_escapedChar (c : Char) (cs : List Char) :
    stringUnits (escapedChar c ++ cs) =
      (stringUnits cs).map fun p => (c.toNat :: p.1, p.2) := by
  by_cases hquote : c = '"'
  · subst c
    exact stringUnits_shortEscape rfl cs
  by_cases hslash : c = '\\'
  · subst c
    exact stringUnits_shortEscape rfl cs
  by_cases hback : c = '\x08'
  · subst c
    exact stringUnits_shortEscape rfl cs
  by_cases hfeed : c = '\x0c'
  · subst c
    exact stringUnits_shortEscape rfl cs
  by_cases hnewline : c = '\n'
  · subst c
    exact stringUnits_shortEscape rfl cs
  by_cases hreturn : c = '\r'
  · subst c
    exact stringUnits_shortEscape rfl cs
  by_cases htab : c = '\t'
  · subst c
    exact stringUnits_shortEscape rfl cs
  unfold escapedChar
  rw [if_neg hquote, if_neg hslash, if_neg hback, if_neg hfeed, if_neg hnewline,
    if_neg hreturn, if_neg htab]
  by_cases hcontrol : c.toNat < 0x20
  · rw [if_pos hcontrol]
    exact stringUnits_codePoint (by omega) cs
  · rw [if_neg hcontrol]
    exact stringUnits_cons hquote hslash hcontrol cs

theorem stringUnits_flatMap (cs rest : List Char) :
    stringUnits (cs.flatMap escapedChar ++ '"' :: rest) = some (cs.map Char.toNat, rest) := by
  induction cs with
  | nil => rw [List.flatMap_nil, List.nil_append, stringUnits, List.map_nil]
  | cons c cs ih =>
    rw [List.flatMap_cons, List.append_assoc, stringUnits_escapedChar, ih]
    rfl

theorem not_surrogate (c : Char) :
    isHighSurrogate c.toNat = false ∧ isLowSurrogate c.toNat = false := by
  have hvalid : c.toNat < 0xd800 ∨ 0xdfff < c.toNat ∧ c.toNat < 0x110000 := c.valid
  simp only [isHighSurrogate, isLowSurrogate, Bool.and_eq_false_iff, decide_eq_false_iff_not]
  omega

theorem textOfUnits?_map (cs : List Char) : textOfUnits? (cs.map Char.toNat) = some cs := by
  induction cs with
  | nil => rfl
  | cons c cs ih =>
    obtain ⟨hhigh, hlow⟩ := not_surrogate c
    cases cs with
    | nil => simp [textOfUnits?, hhigh, hlow, Char.ofNat_toNat]
    | cons d ds =>
      rw [List.map_cons] at ih
      simp [textOfUnits?, hhigh, hlow, ih, Char.ofNat_toNat]

theorem string_writeString (text : String) (rest : List Char) :
    string (writeString (some text) ++ rest) = some (some text, rest) := by
  have hwrite : writeString (some text) ++ rest =
      '"' :: (text.toList.flatMap escapedChar ++ '"' :: rest) := by
    simp [writeString]
  have hunits := stringUnits_flatMap text.toList rest
  rw [hwrite, string, bind_eq_of_eq _ (char_cons _ _), bind_eq_of_eq _ hunits, textOfUnits?_map,
    Option.map_some, String.ofList_toList]
  rfl

end Json
end EvalDiff
