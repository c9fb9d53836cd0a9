import EvalDiff.Text.Hex
import EvalDiff.Text.Reader

/-!
# Strings in TOML

There are four ways to write a string: basic, with escapes, or literal, without, each on one
line or on several.  Writing takes the first way that needs no escapes, in that order, and
falls back on escapes.  Reading takes them all.
-/

namespace EvalDiff
namespace Toml

open Text

/-- Controls that only an escape can hold. -/
def isControl (c : Char) : Bool := (c.toNat < 0x20 && c != '\t' && c != '\n') || c.toNat = 0x7f

inductive Quotes where
  | basic
  | literal
  | longBasic
  | longLiteral
deriving DecidableEq, Repr

/-- The length of the longest run of a character, `run` of which stand in front. -/
def longestRun (q : Char) (run : Nat) : List Char → Nat
  | [] => run
  | c :: cs => if c = q then longestRun q (run + 1) cs else max run (longestRun q 0 cs)

def Quotes.choose (cs : List Char) : Quotes :=
  let plain := !cs.any isControl
  let oneLine := !cs.contains '\n'
  if plain && oneLine && !cs.contains '\\' && !cs.contains '"' then .basic
  else if plain && oneLine && !cs.contains '\'' then .literal
  else if plain && !cs.contains '\\' && longestRun '"' 0 cs ≤ 2 then .longBasic
  else if plain && longestRun '\'' 0 cs ≤ 2 then .longLiteral
  else if oneLine then .basic
  else .longBasic

def upperDigit (n : Nat) : Char := (Nat.digitChar n).toUpper

def basicChar (c : Char) : List Char :=
  if c = '\x08' then ['\\', 'b']
  else if c = '\t' then ['\\', 't']
  else if c = '\x0c' then ['\\', 'f']
  else if c = '\r' then ['\\', 'r']
  else if c = '\\' then ['\\', '\\']
  else if isControl c then
    ['\\', 'u', '0', '0', upperDigit (c.toNat / 16), upperDigit (c.toNat % 16)]
  else [c]

def basicText (cs : List Char) : List Char :=
  cs.flatMap fun c =>
    if c = '"' then ['\\', '"'] else if c = '\n' then ['\\', 'n'] else basicChar c

/-- A text between basic quotes on several lines, after `run` quotation marks.  Three in a row
would close it, so the third is escaped. -/
def longBasicText (run : Nat) : List Char → List Char
  | [] => []
  | c :: cs =>
    if c = '"' then
      if run = 2 then '\\' :: '"' :: longBasicText 0 cs else '"' :: longBasicText (run + 1) cs
    else basicChar c ++ longBasicText 0 cs

/-- A text between its quotes.  Quotes for several lines start with a line break if there is one
in the text. -/
def Quotes.write (cs : List Char) : Quotes → List Char
  | .basic => '"' :: basicText cs ++ ['"']
  | .literal => '\'' :: cs ++ ['\'']
  | .longBasic =>
    ['"', '"', '"'] ++ (if cs.contains '\n' then ['\n'] else []) ++ longBasicText 0 cs ++
      ['"', '"', '"']
  | .longLiteral =>
    ['\'', '\'', '\''] ++ (if cs.contains '\n' then ['\n'] else []) ++ cs ++
      ['\'', '\'', '\'']

def writeString (text : String) : List Char :=
  let cs := text.toList
  (Quotes.choose cs).write cs

/-- What stands in a text as itself: no control but the tab. -/
def isPlain (c : Char) : Bool := c = '\t' || (0x20 ≤ c.toNat && c.toNat != 0x7f)

def newline : Reader Unit
  | '\n' :: cs => some ((), cs)
  | '\r' :: '\n' :: cs => some ((), cs)
  | _ => none

def isSpace (c : Char) : Bool := c = ' ' || c = '\t'

def gap : Reader Unit := do
  let _ ← Reader.span isSpace

/-- The character with a code point given by so many hexadecimal digits. -/
def codePoint (count : Nat) : Reader Char := fun cs => do
  let ds := cs.take count
  let n ← hexValue? ds
  if h : n.isValidChar then
    if ds.length = count then some (Char.ofNatAux n h, cs.drop count) else none
  else none

def escape : Reader Char := do
  Reader.char '\\'
  match ← Reader.satisfy fun _ => true with
  | 'b' => return '\x08'
  | 't' => return '\t'
  | 'n' => return '\n'
  | 'f' => return '\x0c'
  | 'r' => return '\r'
  | '"' => return '"'
  | '\\' => return '\\'
  | 'u' => codePoint 4
  | 'U' => codePoint 8
  | _ => failure

/-- A backslash at the end of a line, which takes the white space after it along. -/
def lineJoin : Reader Unit := do
  Reader.char '\\'
  gap
  newline
  let _ ← Reader.many newlineOrSpace
where
  newlineOrSpace : Reader Unit := newline <|> (do let _ ← Reader.satisfy isSpace)

/-- Three quotation marks that close a string, and up to two before them that belong to it. -/
def closeLong (q : Char) : Reader (List Char) := fun cs =>
  let run := (cs.takeWhile (· == q)).length
  if run < 3 then none
  else
    let kept := min run 5 - 3
    some (List.replicate kept q, cs.drop (kept + 3))

def basicPiece : Reader Char :=
  escape <|> Reader.satisfy fun c => isPlain c && c != '\\'

def basicBody : Reader (List Char) := do
  let (cs, _) ← Reader.untilClose (Reader.char '"') basicPiece
  return cs

def literalBody : Reader (List Char) := do
  let (cs, _) ← Reader.untilClose (Reader.char '\'') (Reader.satisfy isPlain)
  return cs

/-- A line break in a string on several lines, which counts as a newline of either kind. -/
def innerNewline : Reader (List Char) := do
  newline
  return ['\n']

def longBasicPiece : Reader (List Char) :=
  (do lineJoin; return []) <|> innerNewline <|> (do return [← basicPiece])

def longBasicBody : Reader (List Char) := do
  let (pieces, kept) ← Reader.untilClose (closeLong '"') longBasicPiece
  return pieces.flatten ++ kept

def longLiteralPiece : Reader (List Char) :=
  innerNewline <|> (do return [← Reader.satisfy isPlain])

def longLiteralBody : Reader (List Char) := do
  let (pieces, kept) ← Reader.untilClose (closeLong '\'') longLiteralPiece
  return pieces.flatten ++ kept

/-- A line break right after opening quotes for several lines, which is not part of the
text. -/
def firstNewline : Reader Unit := newline <|> pure ()

def string : Reader String := fun cs =>
  let body : Reader (List Char) :=
    match cs with
    | '"' :: '"' :: '"' :: _ => do Reader.word ['"', '"', '"']; firstNewline; longBasicBody
    | '"' :: _ => do Reader.char '"'; basicBody
    | '\'' :: '\'' :: '\'' :: _ => do
      Reader.word ['\'', '\'', '\'']; firstNewline; longLiteralBody
    | _ => do Reader.char '\''; literalBody
  (String.ofList <$> body) cs

end Toml
end EvalDiff
