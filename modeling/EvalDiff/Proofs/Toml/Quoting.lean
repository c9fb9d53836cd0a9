import EvalDiff.Proofs.Toml.LongStrings

/-!
# Strings read back

A string is read in any of the ways it may be written: `Quoted.string`.  The quotes that are
chosen for a text make such a string of it, whatever characters it is made of:
`quoted_writeString`.
-/

namespace EvalDiff
namespace Toml

open Text Reader

variable {c : Char} {cs ds rest first written : List Char}

/-- What stands behind the opening quotes of a string on several lines: a line break, which is not
part of the text, or nothing if the text does not start with one. -/
inductive Opens (written : List Char) : List Char → Prop where
  | lineBreak {ds : List Char} (hds : LineBreak ds) : Opens written ds
  | directly (h : ∀ c ∈ written.head?, c ≠ '\n' ∧ c ≠ '\r') : Opens written []

/-- A string with its quotes, and the text it stands for. -/
inductive Quoted : List Char → List Char → Prop where
  | basic {written cs : List Char} (h : BasicLine written cs) :
    Quoted ('"' :: written ++ ['"']) cs
  | literal {cs : List Char} (h : LiteralLine cs) : Quoted ('\'' :: cs ++ ['\'']) cs
  | longBasic {first written cs : List Char} (hfirst : Opens written first)
    (h : Long '"' BasicPiece 0 written cs) :
    Quoted (['"', '"', '"'] ++ first ++ written ++ ['"', '"', '"']) cs
  | longLiteral {first written cs : List Char} (hfirst : Opens written first)
    (h : Long '\'' LiteralPiece 0 written cs) :
    Quoted (['\'', '\'', '\''] ++ first ++ written ++ ['\'', '\'', '\'']) cs

theorem Quoted.exists_cons (h : Quoted written cs) :
    ∃ q more, written = q :: more ∧ (q = '"' ∨ q = '\'') := by
  cases h with
  | basic => exact ⟨_, _, rfl, Or.inl rfl⟩
  | literal => exact ⟨_, _, rfl, Or.inr rfl⟩
  | longBasic => exact ⟨_, _, rfl, Or.inl rfl⟩
  | longLiteral => exact ⟨_, _, rfl, Or.inr rfl⟩

theorem string_one_quote {text : List Char} (hthree : ∀ more, cs ≠ '"' :: '"' :: more)
    (hbody : basicBody cs = some (text, rest)) :
    string ('"' :: cs) = some (String.ofList text, rest) := by
  have hstring : string ('"' :: cs) =
      (String.ofList <$> (do Reader.char '"'; basicBody)) ('"' :: cs) := by
    unfold string
    split <;> simp_all
  rw [hstring]
  exact map_eq_of_eq _ ((bind_eq_of_eq _ (char_cons _ _)).trans hbody)

theorem string_one_apostrophe {text : List Char} (hthree : ∀ more, cs ≠ '\'' :: '\'' :: more)
    (hbody : literalBody cs = some (text, rest)) :
    string ('\'' :: cs) = some (String.ofList text, rest) := by
  have hstring : string ('\'' :: cs) =
      (String.ofList <$> (do Reader.char '\''; literalBody)) ('\'' :: cs) := by
    unfold string
    split <;> simp_all
  rw [hstring]
  exact map_eq_of_eq _ ((bind_eq_of_eq _ (char_cons _ _)).trans hbody)

theorem Opens.firstNewline {q : Char} (h : Opens written first) (hq : q = '"' ∨ q = '\'')
    (rest : List Char) :
    firstNewline (first ++ (written ++ q :: rest)) = some ((), written ++ q :: rest) := by
  cases h with
  | lineBreak hds => exact orElse_eq_of_eq _ (hds.read _)
  | directly h =>
    refine orElse_eq_of_none _ ?_
    cases written with
    | nil => rcases hq with rfl | rfl <;> rfl
    | cons c cs => exact newline_eq_none (h c rfl).1 (h c rfl).2 _

theorem string_three_quotes {text : List Char} (hnewline : firstNewline cs = some ((), ds))
    (hbody : longBasicBody ds = some (text, rest)) :
    string ('"' :: '"' :: '"' :: cs) = some (String.ofList text, rest) := by
  have hword : Reader.word ['"', '"', '"'] ('"' :: '"' :: '"' :: cs) = some ((), cs) := rfl
  exact map_eq_of_eq _ ((bind_eq_of_eq _ hword).trans ((bind_eq_of_eq _ hnewline).trans hbody))

theorem string_three_apostrophes {text : List Char} (hnewline : firstNewline cs = some ((), ds))
    (hbody : longLiteralBody ds = some (text, rest)) :
    string ('\'' :: '\'' :: '\'' :: cs) = some (String.ofList text, rest) := by
  have hword : Reader.word ['\'', '\'', '\''] ('\'' :: '\'' :: '\'' :: cs) = some ((), cs) := rfl
  exact map_eq_of_eq _ ((bind_eq_of_eq _ hword).trans ((bind_eq_of_eq _ hnewline).trans hbody))

theorem BasicLine.append_ne (h : BasicLine written cs) (hrest : rest.head? ≠ some '"')
    (more : List Char) : written ++ '"' :: rest ≠ '"' :: '"' :: more := by
  cases h with
  | nil =>
    intro h
    cases h
    exact hrest rfl
  | cons hc =>
    obtain ⟨d, ds, hpiece, hd⟩ := hc.exists_cons
    rw [hpiece]
    exact fun h => hd (List.cons.inj h).1

theorem LiteralLine.append_ne (h : LiteralLine cs) (hrest : rest.head? ≠ some '\'')
    (more : List Char) : cs ++ '\'' :: rest ≠ '\'' :: '\'' :: more := by
  cases cs with
  | nil =>
    intro h
    cases h
    exact hrest rfl
  | cons c cs => exact fun heq => (h c List.mem_cons_self).2 (List.cons.inj heq).1

/-- A string ends where no quotation mark follows it. -/
theorem Quoted.string (h : Quoted written cs) (hquote : rest.head? ≠ some '"')
    (hapostrophe : rest.head? ≠ some '\'') :
    string (written ++ rest) = some (String.ofList cs, rest) := by
  cases h with
  | basic h =>
    rw [List.append_assoc]
    exact string_one_quote (h.append_ne hquote) (h.basicBody rest)
  | literal h =>
    rw [List.append_assoc]
    exact string_one_apostrophe (h.append_ne hapostrophe) (h.literalBody rest)
  | longBasic hfirst h =>
    rw [List.append_assoc, List.append_assoc, List.append_assoc]
    exact string_three_quotes (hfirst.firstNewline (Or.inl rfl) _) (h.longBasicBody hquote)
  | longLiteral hfirst h =>
    rw [List.append_assoc, List.append_assoc, List.append_assoc]
    exact string_three_apostrophes (hfirst.firstNewline (Or.inr rfl) _)
      (h.longLiteralBody hapostrophe)

/-- What a text has to be like so that quotes hold it. -/
def Quotes.Holds (cs : List Char) : Quotes → Prop
  | .basic | .longBasic => True
  | .literal => LiteralLine cs
  | .longLiteral => (∀ c ∈ cs, isPlain c = true ∨ c = '\n') ∧ longestRun '\'' 0 cs ≤ 2

theorem plain_or_newline (h : (!cs.any isControl) = true) (hc : c ∈ cs) :
    isPlain c = true ∨ c = '\n' := by
  by_cases hnewline : c = '\n'
  · exact Or.inr hnewline
  · exact Or.inl (isPlain_of_not_control (by simp_all) hnewline)

theorem ne_of_not_contains {d : Char} (h : (!cs.contains d) = true) (hc : c ∈ cs) : c ≠ d := by
  rintro rfl
  simp [hc] at h

theorem Quotes.holds_choose (cs : List Char) : (choose cs).Holds cs := by
  unfold choose
  extract_lets plain oneLine
  split
  · trivial
  · split
    · next h =>
      simp only [Bool.and_eq_true] at h
      obtain ⟨⟨hplain, hline⟩, hquote⟩ := h
      intro c hc
      exact ⟨(plain_or_newline hplain hc).resolve_right (ne_of_not_contains hline hc),
        ne_of_not_contains hquote hc⟩
    · split
      · trivial
      · split
        · next h =>
          simp only [Bool.and_eq_true, decide_eq_true_eq] at h
          exact ⟨fun c => plain_or_newline h.1, h.2⟩
        · split <;> trivial

/-- The written line break is there if the text has one, also if the text starts with it. -/
theorem opens_written (h : cs.contains '\n' = false → ∀ c ∈ written.head?, c ≠ '\n' ∧ c ≠ '\r') :
    Opens written (if cs.contains '\n' then ['\n'] else []) := by
  cases hcs : cs.contains '\n' with
  | true => exact .lineBreak .newline
  | false => exact .directly (h hcs)

theorem Stands.head_ne (h : Stands c written) (more : List Char) :
    ∀ d ∈ (written ++ more).head?, d ≠ '\n' ∧ d ≠ '\r' := by
  cases h with
  | escaped => simp
  | plain hplain =>
    have hne := ne_newline_of_isPlain hplain
    simpa using hne

/-- A text on one line is not written with a line break in front. -/
theorem head_longBasicText_ne (hcs : cs.contains '\n' = false) :
    ∀ c ∈ (longBasicText 0 cs).head?, c ≠ '\n' ∧ c ≠ '\r' := by
  cases cs with
  | nil => exact nofun
  | cons c cs =>
    unfold longBasicText
    by_cases hquote : c = '"'
    · simp [hquote]
    · have hnewline : c ≠ '\n' := by
        rintro rfl
        simp at hcs
      rw [if_neg hquote]
      exact (stands_basicChar hquote hnewline).head_ne _

theorem head_ne_of_plain (h : ∀ c ∈ cs, isPlain c = true ∨ c = '\n')
    (hcs : cs.contains '\n' = false) : ∀ c ∈ cs.head?, c ≠ '\n' ∧ c ≠ '\r' := by
  intro c hc
  have hmem := List.mem_of_head? hc
  have hnewline : c ≠ '\n' := ne_of_not_contains (by simpa using hcs) hmem
  exact ne_newline_of_isPlain ((h c hmem).resolve_right hnewline)

theorem Quotes.Holds.quoted {quotes : Quotes} (h : quotes.Holds cs) :
    Quoted (quotes.write cs) cs := by
  cases quotes with
  | basic => exact .basic (basicLine_basicText cs)
  | literal => exact .literal h
  | longBasic =>
    exact .longBasic (opens_written head_longBasicText_ne) (long_longBasicText (Nat.zero_le 2) cs)
  | longLiteral => exact .longLiteral (opens_written (head_ne_of_plain h.1)) (long_literal h.1 h.2)

theorem quoted_writeString (text : String) : Quoted (writeString text) text.toList :=
  (Quotes.holds_choose text.toList).quoted

end Toml
end EvalDiff
