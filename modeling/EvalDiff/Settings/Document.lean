import EvalDiff.Settings.Basic
import EvalDiff.Toml.Quoting
import EvalDiff.Toml.Reader

/-!
# Settings in TOML

Settings are written as four lines, and read from the root table of a document.  A key that is
missing leaves its default, and keys with other names are passed over.
-/

namespace EvalDiff
namespace Settings

/-- A line that sets a key. -/
def settingLine (key : String) (value : List Char) : List Char :=
  key.toList ++ [' ', '=', ' '] ++ value ++ ['\n']

def booleanText : Bool → List Char
  | true => ['t', 'r', 'u', 'e']
  | false => ['f', 'a', 'l', 's', 'e']

def document (s : Settings) : List Char :=
  settingLine "marker_prefix" (Toml.writeString s.marker) ++
    settingLine "aggregate_category" (Toml.writeString s.aggregate) ++
    settingLine "strict" (booleanText s.strict) ++
    settingLine "format" (Toml.writeString s.format.name)

def text? : Toml.Value → Option String
  | .string text => some text
  | _ => none

def boolean? : Toml.Value → Option Bool
  | .boolean value => some value
  | _ => none

/-- A table or an array with nothing in it. -/
def isVoid : Toml.Value → Bool
  | .array items => items.isEmpty
  | .table _ entries => entries.isEmpty
  | .tables rows => rows.isEmpty
  | _ => false

/-- A format by its name, alone or as the only key of a table with nothing as its value. -/
def format? : Toml.Value → Option Report.Format
  | .string name => Report.Format.ofName? name
  | .table _ [(name, value)] => if isVoid value then Report.Format.ofName? name else none
  | _ => none

/-- The value of a key, or a default if it is not set. -/
def valueOr {α : Type} (entries : Toml.Entries) (key : String) (default : α)
    (read : Toml.Value → Option α) : Option α :=
  match entries.get? key with
  | none => some default
  | some value => read value

def ofEntries? (entries : Toml.Entries) : Option Settings := do
  let defaults : Settings := {}
  return {
    marker := ← valueOr entries "marker_prefix" defaults.marker text?
    aggregate := ← valueOr entries "aggregate_category" defaults.aggregate text?
    strict := ← valueOr entries "strict" defaults.strict boolean?
    format := ← valueOr entries "format" defaults.format format? }

def ofDocument? (cs : List Char) : Option Settings := do
  ofEntries? (← Toml.read? cs)

end Settings
end EvalDiff
