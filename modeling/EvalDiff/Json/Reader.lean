import EvalDiff.Json.Value
import EvalDiff.Text.Hex
import EvalDiff.Text.Reader

/-!
# Reading JSON

A text is read as one value with blanks around it.  Nothing is refused for its size or depth:
each level of nesting takes a character, so the length of the text bounds the depth.
-/

namespace EvalDiff
namespace Json

open Text

def isGap (c : Char) : Bool := c = ' ' || c = '\n' || c = '\t' || c = '\r'

def gap : Reader Unit := do
  let _ ← Reader.span isGap

def shortEscape? : Char → Option Char
  | '"' => some '"'
  | '\\' => some '\\'
  | '/' => some '/'
  | 'b' => some '\x08'
  | 'f' => some '\x0c'
  | 'n' => some '\n'
  | 'r' => some '\r'
  | 't' => some '\t'
  | _ => none

/-- The inside of a string up to the quotation mark that ends it, as code points in which
surrogates can occur. -/
def stringUnits : List Char → Option (List Nat × List Char)
  | [] => none
  | '"' :: cs => some ([], cs)
  | '\\' :: 'u' :: a :: b :: c :: d :: cs => do
    let unit ← hexValue? [a, b, c, d]
    let (units, rest) ← stringUnits cs
    return (unit :: units, rest)
  | '\\' :: c :: cs => do
    let char ← shortEscape? c
    let (units, rest) ← stringUnits cs
    return (char.toNat :: units, rest)
  | c :: cs =>
    if c.toNat < 0x20 then none
    else do
      let (units, rest) ← stringUnits cs
      return (c.toNat :: units, rest)

def isHighSurrogate (unit : Nat) : Bool := 0xd800 ≤ unit && unit < 0xdc00

def isLowSurrogate (unit : Nat) : Bool := 0xdc00 ≤ unit && unit < 0xe000

/-- The text that code points stand for, a high surrogate and the low one after it making one
character.  `none` if a surrogate stands alone. -/
def textOfUnits? : List Nat → Option (List Char)
  | [] => some []
  | [unit] => if isHighSurrogate unit || isLowSurrogate unit then none else some [Char.ofNat unit]
  | unit :: next :: units =>
    if isHighSurrogate unit then
      if isLowSurrogate next then
        (textOfUnits? units).map
          (Char.ofNat (0x10000 + (unit - 0xd800) * 0x400 + (next - 0xdc00)) :: ·)
      else none
    else if isLowSurrogate unit then none
    else (textOfUnits? (next :: units)).map (Char.ofNat unit :: ·)

def string : Reader (Option String) := do
  Reader.char '"'
  let units ← stringUnits
  return (textOfUnits? units).map String.ofList

/-- The digits before the point: a zero alone, or digits that do not start with one. -/
def wholeDigits : Reader (List Char) := do
  let ds ← Reader.span1 Char.isDigit
  if ds.head? = some '0' ∧ ds.length ≠ 1 then failure else return ds

def fraction : Reader (Option (List Char)) := do
  if (← Reader.peek) = some '.' then
    Reader.char '.'
    return some (← Reader.span1 Char.isDigit)
  else return none

def exponent : Reader (Option (Bool × List Char)) := do
  match ← Reader.peek with
  | some c =>
    if c = 'e' ∨ c = 'E' then
      Reader.char c
      let sign ← Reader.peek
      if sign = some '-' then Reader.char '-'
      else if sign = some '+' then Reader.char '+'
      return some (sign = some '-', ← Reader.span1 Char.isDigit)
    else return none
  | none => return none

def number : Reader Number := do
  let negative := (← Reader.peek) = some '-'
  if negative then Reader.char '-'
  return { negative, whole := ← wholeDigits, fraction := ← fraction, exponent := ← exponent }

def member (value : Reader Value) : Reader (Option String × Value) := do
  let name ← string
  gap
  Reader.char ':'
  gap
  return (name, ← value)

/-- A value with at most the given number of values around each other. -/
def value : Nat → Reader Value
  | 0 => failure
  | depth + 1 => do
    match ← Reader.peek with
    | some 'n' =>
      Reader.word ['n', 'u', 'l', 'l']
      return .null
    | some 't' =>
      Reader.word ['t', 'r', 'u', 'e']
      return .boolean true
    | some 'f' =>
      Reader.word ['f', 'a', 'l', 's', 'e']
      return .boolean false
    | some '"' => return .string (← string)
    | some '[' =>
      Reader.char '['
      return .array (← Reader.items gap false (value depth) ']')
    | some '\x7b' =>
      Reader.char '\x7b'
      return .object (← Reader.items gap false (member (value depth)) '\x7d')
    | _ => return .number (← number)

def read? (cs : List Char) : Option Value :=
  let document : Reader Value := do
    gap
    let v ← value cs.length
    gap
    Reader.finish
    return v
  (document cs).map (·.1)

end Json
end EvalDiff
