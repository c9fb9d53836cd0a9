import EvalDiff.Json.Value

/-!
# Writing JSON

Two layouts: on one line without blanks, and indented with one item or member a line.
-/

namespace EvalDiff
namespace Json

/-- A character inside a string.  Only what JSON forbids there is escaped. -/
def escapedChar (c : Char) : List Char :=
  if c = '"' then ['\\', '"']
  else if c = '\\' then ['\\', '\\']
  else if c = '\x08' then ['\\', 'b']
  else if c = '\x0c' then ['\\', 'f']
  else if c = '\n' then ['\\', 'n']
  else if c = '\r' then ['\\', 'r']
  else if c = '\t' then ['\\', 't']
  else if c.toNat < 0x20 then
    ['\\', 'u', '0', '0', Nat.digitChar (c.toNat / 16), Nat.digitChar (c.toNat % 16)]
  else [c]

/-- A string with its quotation marks.  One that stands for no text is written empty. -/
def writeString (text : Option String) : List Char :=
  '"' :: (text.getD "").toList.flatMap escapedChar ++ ['"']

def Number.write (n : Number) : List Char :=
  (if n.negative then ['-'] else []) ++ n.whole ++
    (match n.fraction with
      | none => []
      | some ds => '.' :: ds) ++
    (match n.exponent with
      | none => []
      | some (negative, ds) => 'e' :: (if negative then '-' else '+') :: ds)

/-- How the parts of arrays and objects are set apart. -/
structure Layout where
  /-- What stands before each part, at a depth of nesting. -/
  newline : Nat → List Char
  /-- What stands between a name and its value. -/
  colon : List Char

/-- Everything on one line, without blanks. -/
def Layout.compact : Layout := { newline := fun _ => [], colon := [':'] }

/-- A line for each part, two spaces further in for each level. -/
def Layout.indented : Layout :=
  { newline := fun depth => '\n' :: List.replicate (2 * depth) ' ', colon := [':', ' '] }

/-- Parts with commas between them, each on its line, or nothing at all. -/
def enclose (layout : Layout) (depth : Nat) (first last : Char) (parts : List (List Char)) :
    List Char :=
  if parts.isEmpty then [first, last]
  else
    first :: layout.newline (depth + 1) ++
      (',' :: layout.newline (depth + 1)).intercalate parts ++ layout.newline depth ++ [last]

mutual

/-- A value inside `depth` arrays and objects. -/
def Value.write (layout : Layout) (depth : Nat) : Value → List Char
  | .null => ['n', 'u', 'l', 'l']
  | .boolean true => ['t', 'r', 'u', 'e']
  | .boolean false => ['f', 'a', 'l', 's', 'e']
  | .number n => n.write
  | .string text => writeString text
  | .array items => enclose layout depth '[' ']' (writeItems layout (depth + 1) items)
  | .object members =>
    enclose layout depth '\x7b' '\x7d' (writeMembers layout (depth + 1) members)

def writeItems (layout : Layout) (depth : Nat) : List Value → List (List Char)
  | [] => []
  | item :: items => item.write layout depth :: writeItems layout depth items

def writeMembers (layout : Layout) (depth : Nat) :
    List (Option String × Value) → List (List Char)
  | [] => []
  | (name, value) :: members =>
    (writeString name ++ layout.colon ++ value.write layout depth) ::
      writeMembers layout depth members

end

end Json
end EvalDiff
