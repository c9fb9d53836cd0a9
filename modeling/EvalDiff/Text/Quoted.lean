import EvalDiff.Text.Extender
import EvalDiff.Text.Ignorable
import EvalDiff.Text.Unprintable

/-!
# Text in quotation marks

How a message shows a piece of its input: between double quotation marks, with everything
that would be invisible, or would change the look of its neighbours, written as an escape.
-/

namespace EvalDiff
namespace Text

/-- A character by its code point: `\u` and the hexadecimal digits in braces. -/
def codePointEscape (c : Char) : List Char :=
  ['\\', 'u', '\x7b'] ++ Nat.toDigits 16 c.toNat ++ ['\x7d']

/-- A character as it stands between quotation marks. -/
def quotedChar (c : Char) : List Char :=
  if c = '"' then ['\\', '"']
  else if c = '\\' then ['\\', '\\']
  else if c = '\n' then ['\\', 'n']
  else if c = '\r' then ['\\', 'r']
  else if c = '\t' then ['\\', 't']
  else if c = '\x00' then ['\\', '0']
  else if isExtender c || isIgnorable c || isUnprintable c then codePointEscape c
  else [c]

def quoted (text : String) : String :=
  String.ofList ('"' :: text.toList.flatMap quotedChar ++ ['"'])

end Text
end EvalDiff
