import EvalDiff.Proofs.Text.Reader
import EvalDiff.Proofs.Text.Utf8
import EvalDiff.Toml.Quoting

/-!
# Characters between quotes

Between basic quotes every character stands either as one of its escapes, which is read by what it
means, or as itself.  Between literal quotes all of them stand as themselves.
-/

namespace EvalDiff
namespace Toml

open Text Reader

variable {c : Char} {cs ds rest piece front written : List Char}

/-- What may stand behind a backslash for a character: a letter or the character itself, or its
code point with four or eight hexadecimal digits. -/
inductive Escapes : Char → List Char → Prop where
  | backspace : Escapes '\x08' ['b']
  | tab : Escapes '\t' ['t']
  | newline : Escapes '\n' ['n']
  | formFeed : Escapes '\x0c' ['f']
  | carriageReturn : Escapes '\r' ['r']
  | quote : Escapes '"' ['"']
  | backslash : Escapes '\\' ['\\']
  | four {c : Char} {ds : List Char} (hcount : ds.length = 4)
    (hvalue : hexValue? ds = some c.toNat) : Escapes c ('u' :: ds)
  | eight {c : Char} {ds : List Char} (hcount : ds.length = 8)
    (hvalue : hexValue? ds = some c.toNat) : Escapes c ('U' :: ds)

theorem codePoint_append {count : Nat} (hcount : ds.length = count)
    (hvalue : hexValue? ds = some c.toNat) : codePoint count (ds ++ rest) = some (c, rest) := by
  subst count
  have hvalid : c.toNat.isValidChar := c.valid
  rw [codePoint, List.take_left, List.drop_left]
  show (hexValue? ds >>= fun n => if h : n.isValidChar then
    if ds.length = ds.length then some (Char.ofNatAux n h, rest) else none else none) = _
  rw [hvalue]
  exact (dif_pos hvalid).trans (if_pos rfl)

theorem Escapes.escape (h : Escapes c front) (rest : List Char) :
    escape ('\\' :: (front ++ rest)) = some (c, rest) := by
  cases h with
  | four hcount hvalue => exact codePoint_append hcount hvalue
  | eight hcount hvalue => exact codePoint_append hcount hvalue
  | _ => rfl

theorem escape_eq_none (h : c ≠ '\\') : escape (c :: cs) = none :=
  bind_eq_none _ (char_cons_of_ne h cs)

/-- How a character stands between basic quotes: as an escape or as itself. -/
inductive Stands (c : Char) : List Char → Prop where
  | escaped {front : List Char} (h : Escapes c front) : Stands c ('\\' :: front)
  | plain (hplain : isPlain c = true) (hslash : c ≠ '\\') (hquote : c ≠ '"') : Stands c [c]

theorem Stands.basicPiece (h : Stands c piece) (rest : List Char) :
    basicPiece (piece ++ rest) = some (c, rest) := by
  cases h with
  | escaped h => exact orElse_eq_of_eq _ (h.escape rest)
  | plain hplain hslash hquote =>
    rw [Toml.basicPiece, List.singleton_append, orElse_eq_of_none _ (escape_eq_none hslash)]
    exact satisfy_cons (by simp [hplain, hslash]) rest

theorem Stands.exists_cons (h : Stands c piece) : ∃ d ds, piece = d :: ds ∧ d ≠ '"' := by
  cases h with
  | escaped => exact ⟨_, _, rfl, by decide⟩
  | plain _ _ hquote => exact ⟨_, _, rfl, hquote⟩

theorem isPlain_of_not_control (hcontrol : isControl c = false) (hnewline : c ≠ '\n') :
    isPlain c = true := by
  by_cases htab : c = '\t'
  · simp [isPlain, htab]
  · simp [isControl, htab, hnewline] at hcontrol
    simp [isPlain, hcontrol]

theorem hexDigit?_upperDigit : ∀ n < 16, hexDigit? (upperDigit n) = some n := by decide

theorem escapes_control (h : isControl c = true) :
    Escapes c ['u', '0', '0', upperDigit (c.toNat / 16), upperDigit (c.toNat % 16)] := by
  have hc : c.toNat < 256 := by
    simp [isControl] at h
    omega
  have hzero : hexDigit? '0' = some 0 := rfl
  have hsum : c.toNat / 16 * 16 + c.toNat % 16 = c.toNat := by omega
  refine .four rfl ?_
  simp [hexValue?, hzero, hexDigit?_upperDigit (c.toNat / 16) (by omega),
    hexDigit?_upperDigit (c.toNat % 16) (by omega), hsum]

theorem stands_basicChar (hquote : c ≠ '"') (hnewline : c ≠ '\n') : Stands c (basicChar c) := by
  by_cases hback : c = '\x08'
  · subst c
    exact .escaped .backspace
  by_cases htab : c = '\t'
  · subst c
    exact .escaped .tab
  by_cases hfeed : c = '\x0c'
  · subst c
    exact .escaped .formFeed
  by_cases hreturn : c = '\r'
  · subst c
    exact .escaped .carriageReturn
  by_cases hslash : c = '\\'
  · subst c
    exact .escaped .backslash
  unfold basicChar
  rw [if_neg hback, if_neg htab, if_neg hfeed, if_neg hreturn, if_neg hslash]
  cases hcontrol : isControl c with
  | true => exact .escaped (escapes_control hcontrol)
  | false => exact .plain (isPlain_of_not_control hcontrol hnewline) hslash hquote

/-- A text as it may be written between basic quotes on one line. -/
inductive BasicLine : List Char → List Char → Prop where
  | nil : BasicLine [] []
  | cons {c : Char} {piece written cs : List Char} (hc : Stands c piece)
    (h : BasicLine written cs) : BasicLine (piece ++ written) (c :: cs)

theorem BasicLine.scans (h : BasicLine written cs) (rest : List Char) :
    Scans (char '"') basicPiece (written ++ '"' :: rest) cs () rest := by
  induction h with
  | nil => exact .done (char_cons '"' rest)
  | cons hc _ ih =>
    obtain ⟨d, ds, hpiece, hd⟩ := hc.exists_cons
    rw [List.append_assoc]
    refine .turn ?_ (hc.basicPiece _) ?_ ih
    · rw [hpiece]
      exact char_cons_of_ne hd _
    · simp only [hpiece, List.cons_append, List.length_cons, List.length_append]
      omega

theorem BasicLine.basicBody (h : BasicLine written cs) (rest : List Char) :
    basicBody (written ++ '"' :: rest) = some (cs, rest) :=
  bind_eq_of_eq _ (h.scans rest).untilClose

theorem basicLine_basicText (cs : List Char) : BasicLine (basicText cs) cs := by
  induction cs with
  | nil => exact .nil
  | cons c cs ih =>
    rw [basicText, List.flatMap_cons]
    refine .cons ?_ ih
    by_cases hquote : c = '"'
    · subst c
      exact .escaped .quote
    by_cases hnewline : c = '\n'
    · subst c
      exact .escaped .newline
    rw [if_neg hquote, if_neg hnewline]
    exact stands_basicChar hquote hnewline

/-- A text that stands as it is between literal quotes on one line. -/
def LiteralLine (cs : List Char) : Prop := ∀ c ∈ cs, isPlain c = true ∧ c ≠ '\''

theorem LiteralLine.scans (h : LiteralLine cs) (rest : List Char) :
    Scans (char '\'') (satisfy isPlain) (cs ++ '\'' :: rest) cs () rest := by
  induction cs with
  | nil => exact .done (char_cons '\'' rest)
  | cons c cs ih =>
    obtain ⟨⟨hplain, hquote⟩, hcs⟩ := List.forall_mem_cons.mp h
    exact .turn (char_cons_of_ne hquote _) (satisfy_cons hplain _) (Nat.lt_succ_self _) (ih hcs)

theorem LiteralLine.literalBody (h : LiteralLine cs) (rest : List Char) :
    literalBody (cs ++ '\'' :: rest) = some (cs, rest) :=
  bind_eq_of_eq _ (h.scans rest).untilClose

end Toml
end EvalDiff
