/-!
# Reading from the front of a text

A reader takes something from the front of a text and leaves the rest, or refuses.  The formats
read here never need to look back further than the start of the piece being read.
-/

namespace EvalDiff
namespace Text

/-- Refusing is `none`. -/
abbrev Reader (α : Type) := StateT (List Char) Option α

namespace Reader

def satisfy (p : Char → Bool) : Reader Char
  | c :: cs => if p c then some (c, cs) else none
  | [] => none

def char (c : Char) : Reader Unit
  | d :: cs => if d = c then some ((), cs) else none
  | [] => none

def word : List Char → Reader Unit
  | [] => pure ()
  | c :: cs => do char c; word cs

def span (p : Char → Bool) : Reader (List Char) := fun cs => some (cs.span p)

def span1 (p : Char → Bool) : Reader (List Char) := fun cs =>
  match cs.span p with
  | ([], _) => none
  | found => some found

/-- The next character, which stays. -/
def peek : Reader (Option Char) := fun cs => some (cs.head?, cs)

def finish : Reader Unit
  | [] => some ((), [])
  | _ => none

/-- The reader as often as it succeeds, but at most once for each character of a budget. -/
def manyWithin {α : Type} (r : Reader α) : List Char → Reader (List α)
  | [] => pure []
  | _ :: budget => fun cs =>
    match r cs with
    | none => some ([], cs)
    | some (a, rest) => (manyWithin r budget rest).map fun (as, rest) => (a :: as, rest)

/-- The reader as often as it succeeds.  A reader that takes something each time succeeds at
most once for each character of the text, so the text itself is budget enough. -/
def many {α : Type} (r : Reader α) : Reader (List α) := fun cs => manyWithin r cs cs

/-- The second reader as often as it takes to come to where the first one succeeds, but at most
once for each character of a budget. -/
def untilWithin {α β : Type} (close : Reader β) (r : Reader α) :
    List Char → Reader (List α × β)
  | [] => fun cs => (close cs).map fun (b, rest) => (([], b), rest)
  | _ :: budget => fun cs =>
    match close cs with
    | some (b, rest) => some (([], b), rest)
    | none =>
      match r cs with
      | none => none
      | some (a, rest) =>
        (untilWithin close r budget rest).map fun ((as, b), rest) => ((a :: as, b), rest)

def untilClose {α β : Type} (close : Reader β) (r : Reader α) : Reader (List α × β) := fun cs =>
  untilWithin close r cs cs

/-- Items with commas between them up to a closing character, with gaps allowed around every
item.  The last item may have a comma after it if `trailing` says so. -/
def items {α : Type} (gap : Reader Unit) (trailing : Bool) (item : Reader α) (close : Char) :
    Reader (List α) := do
  gap
  if (← peek) = some close then
    char close
    return []
  else
    let first ← item
    let others ← many (do gap; char ','; gap; item)
    gap
    if trailing ∧ (← peek) = some ',' then
      char ','
      gap
    char close
    return first :: others

end Reader
end Text
end EvalDiff
