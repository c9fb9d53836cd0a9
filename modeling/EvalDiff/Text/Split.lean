/-!
# Splitting and padding text

A text of `n` separators has `n + 1` pieces, some of which may be empty, and joining the pieces
with the separator gives the text back.  Lines are the pieces between newlines, except that a
newline at the very end does not start another line.
-/

namespace EvalDiff
namespace Text

/-- The pieces between the occurrences of a character. -/
def splitOn (separator : Char) (cs : List Char) : List (List Char) :=
  cs.foldr
    (fun c pieces =>
      if c = separator then [] :: pieces
      else (c :: pieces.headD []) :: pieces.tail)
    [[]]

/-- The pieces with the separator between them. -/
def joinWith (separator : Char) (pieces : List (List Char)) : List Char :=
  [separator].intercalate pieces

theorem splitOn_ne_nil (separator : Char) (cs : List Char) : splitOn separator cs ≠ [] := by
  cases cs with
  | nil => simp [splitOn]
  | cons c cs =>
    rw [splitOn, List.foldr_cons]
    split <;> simp

theorem splitOn_cons (separator c : Char) (cs : List Char) :
    splitOn separator (c :: cs) =
      if c = separator then [] :: splitOn separator cs
      else (c :: (splitOn separator cs).headD []) :: (splitOn separator cs).tail := by
  rw [splitOn, List.foldr_cons]
  rfl

theorem joinWith_splitOn (separator : Char) (cs : List Char) :
    joinWith separator (splitOn separator cs) = cs := by
  induction cs with
  | nil => simp [splitOn, joinWith]
  | cons c cs ih =>
    have hne := splitOn_ne_nil separator cs
    rw [splitOn_cons]
    cases hs : splitOn separator cs with
    | nil => exact absurd hs hne
    | cons piece pieces =>
      rw [hs] at ih
      by_cases hc : c = separator
      · simp only [hc, if_true]
        rw [joinWith, List.intercalate_cons_cons]
        rw [joinWith] at ih
        simp [ih]
      · simp only [hc, if_false, List.headD_cons, List.tail_cons]
        rw [joinWith] at ih ⊢
        cases pieces with
        | nil => simpa using ih
        | cons next more =>
          rw [List.intercalate_cons_cons] at ih ⊢
          simpa using ih

/-- A line without the carriage return at its end. -/
def dropCarriageReturn (line : List Char) : List Char :=
  if line.getLast? = some '\r' then line.dropLast else line

/-- The lines of a text.  A line ends with a newline, or a carriage return and a newline; what
follows the last newline is a line as it stands, unless nothing does. -/
def lines (cs : List Char) : List (List Char) :=
  let pieces := splitOn '\n' cs
  let last := pieces.getLastD []
  pieces.dropLast.map dropCarriageReturn ++ (if last.isEmpty then [] else [last])

/-- A text with spaces after it up to the given number of characters. -/
def padRight (width : Nat) (cs : List Char) : List Char :=
  cs.rightpad width ' '

end Text
end EvalDiff
