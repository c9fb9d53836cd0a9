import EvalDiff.Text.Split

/-!
# Coloured text

Terminal escape sequences that switch colours on before a text and off after it.  Padding is
part of the text, so that it takes the colour too.
-/

namespace EvalDiff
namespace Text

/-- The codes that a sequence switches on, in order. -/
abbrev Style := List String

namespace Style

def bold : Style := ["1"]
def dimmed : Style := ["2"]
def green : Style := ["32"]
def cyan : Style := ["36"]
def boldRed : Style := ["1", "31"]
def boldGreen : Style := ["1", "32"]
def red : Style := ["31"]

def opening (style : Style) : List Char :=
  '\x1b' :: '[' :: (";".intercalate style).toList ++ ['m']

/-- The sequence that switches every style off. -/
def closing : List Char := ['\x1b', '[', '0', 'm']

/-- A text in which the style is switched on again wherever the text itself switches styles
off. -/
def reopened (style : Style) : List Char → List Char
  | '\x1b' :: '[' :: '0' :: 'm' :: cs => closing ++ opening style ++ reopened style cs
  | c :: cs => c :: reopened style cs
  | [] => []

/-- A text padded to a width, in the style if colours are wanted. -/
def paint (color : Bool) (style : Style) (width : Nat) (text : String) : String :=
  if color then
    String.ofList
      (opening style ++ padRight width (reopened style text.toList) ++ closing)
  else String.ofList (padRight width text.toList)

end Style
end Text
end EvalDiff
