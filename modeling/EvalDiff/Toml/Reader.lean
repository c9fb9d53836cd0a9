import EvalDiff.Toml.Document
import EvalDiff.Toml.Quoting
import EvalDiff.Toml.Scalar

/-!
# Reading TOML

A document is read line by line into statements, from which its tables are built.  Only values
between brackets and long strings run over several lines.
-/

namespace EvalDiff
namespace Toml

open Text

/-- Paths and nested values of this length and more are refused. -/
def depthLimit : Nat := 80

def comment : Reader Unit := do
  Reader.char '#'
  let _ ← Reader.span isPlain

def lineGap : Reader Unit := do
  let _ ← Reader.many piece
where
  piece : Reader Unit :=
    (do let _ ← Reader.span1 isSpace) <|> newline <|> (do comment; newline)

/-- What may stand behind a statement, up to the end of the line. -/
def lineEnd : Reader Unit := do
  gap
  if (← Reader.peek) = some '#' then comment
  newline <|> Reader.finish

def isKeyChar (c : Char) : Bool := c.isAlphanum || c = '_' || c = '-'

/-- One part of a key, bare or between single or double quotes. -/
def keyPart : Reader String := do
  match ← Reader.peek with
  | some '"' =>
    Reader.char '"'
    String.ofList <$> basicBody
  | some '\'' =>
    Reader.char '\''
    String.ofList <$> literalBody
  | _ => String.ofList <$> Reader.span1 isKeyChar

/-- A key with the parts before the last one and the last one, and blanks around it. -/
def key : Reader (List String × String) := do
  gap
  let first ← keyPart
  let others ← Reader.many (do gap; Reader.char '.'; gap; keyPart)
  gap
  if others.length + 1 < depthLimit then
    return ((first :: others).dropLast, others.getLastD first)
  else failure

def bare : Reader Value := fun cs =>
  let (front, rest) := cs.span isBare
  let spaced :=
    match rest with
    | ' ' :: more =>
      let (time, rest) := more.span isBare
      if isDate front && isTimeWithOffset time then some (.dateTime, rest) else none
    | _ => none
  spaced <|> (bareValue? front).map (·, rest)

/-- A value that holds no others. -/
def simple : Reader Value := do
  match ← Reader.peek with
  | some '"' => .string <$> string
  | some '\'' => .string <$> string
  | _ => bare

def setting (value : Reader Value) : Reader (List String × String × Value) := do
  let (path, last) ← key
  Reader.char '='
  gap
  return (path, last, ← value)

/-- A value in which at most the given number of values stand around each other. -/
def value : Nat → Reader Value
  | 0 => simple
  | depth + 1 => do
    match ← Reader.peek with
    | some '[' =>
      Reader.char '['
      return .array (← Reader.items lineGap true (value depth) ']')
    | some '\x7b' =>
      Reader.char '\x7b'
      let settings ← Reader.items gap false (setting (value depth)) '\x7d'
      match inlineEntries settings with
      | some entries => return .table .inline entries
      | none => failure
    | _ => simple

def header : Reader Statement := do
  Reader.char '['
  if (← Reader.peek) = some '[' then
    Reader.char '['
    let (path, last) ← key
    Reader.word [']', ']']
    return .arrayHeader path last
  else
    let (path, last) ← key
    Reader.char ']'
    return .header path last

/-- A line with its statement, if it has one. -/
def line : Reader (Option Statement) := do
  gap
  match ← Reader.peek with
  | some '[' =>
    let statement ← header
    lineEnd
    return some statement
  | some c =>
    if c = '#' ∨ c = '\n' ∨ c = '\r' then
      lineEnd
      return none
    else
      let (path, last, v) ← setting (value (depthLimit - 1))
      lineEnd
      return some (.setting path last v)
  | none => return none

/-- The statements of a document, which may start with a byte order mark. -/
def statements? (cs : List Char) : Option (List Statement) :=
  let cs := if cs.head? = some '\ufeff' then cs.tail else cs
  (Reader.untilClose Reader.finish line cs).map fun ((found, _), _) => found.filterMap id

def read? (cs : List Char) : Option Entries := do
  build (← statements? cs)

end Toml
end EvalDiff
