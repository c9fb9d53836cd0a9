import EvalDiff.Proofs.Text.Utf8
import EvalDiff.Proofs.Toml.Lines
import EvalDiff.Settings.File
import Mathlib.Data.List.Nodup

/-!
# Settings read back from a document

A document that sets some of the keys, in any order and with other keys between them, holds the
values of these keys and the defaults of the others: `SetsKeys.ofDocument?_eq`.  The document of
settings is the one that sets all four.
-/

namespace EvalDiff
namespace Settings

open Toml

variable {s : Settings} {cs : List Char} {keys : List Key} {others : List String}
  {entries : Entries} {v : Value}

inductive Key where
  | marker
  | aggregate
  | strict
  | format
deriving DecidableEq, Repr

def Key.name : Key → String
  | .marker => "marker_prefix"
  | .aggregate => "aggregate_category"
  | .strict => "strict"
  | .format => "format"

theorem Key.name_injective : Function.Injective Key.name := by
  intro key key'
  cases key <;> cases key' <;> decide

/-- The value of a key. -/
def value (s : Settings) : Key → Value
  | .marker => .string s.marker
  | .aggregate => .string s.aggregate
  | .strict => .boolean s.strict
  | .format => .string s.format.name

/-- The value of a key as it is saved. -/
def valueText (s : Settings) : Key → List Char
  | .marker => writeString s.marker
  | .aggregate => writeString s.aggregate
  | .strict => booleanText s.strict
  | .format => writeString s.format.name

/-- The line that sets a key as it is saved. -/
def keyLine (s : Settings) (key : Key) : List Char := settingLine key.name (s.valueText key)

/-- The settings with the defaults for all but some keys. -/
def only (s : Settings) (keys : List Key) : Settings :=
  let defaults : Settings := {}
  { marker := if .marker ∈ keys then s.marker else defaults.marker
    aggregate := if .aggregate ∈ keys then s.aggregate else defaults.aggregate
    strict := if .strict ∈ keys then s.strict else defaults.strict
    format := if .format ∈ keys then s.format else defaults.format }

theorem Key.isBareKey (key : Key) : IsBareKey key.name := by
  cases key <;> exact ⟨nofun, rfl⟩

theorem valueText_booleanText (b : Bool) : ValueText (booleanText b) (.boolean b) := by
  cases b with
  | true => exact .isTrue
  | false => exact .isFalse

theorem valueText_value (s : Settings) (key : Key) :
    ValueText (s.valueText key) (s.value key) := by
  cases key with
  | strict => exact valueText_booleanText s.strict
  | _ => exact valueText_writeString _

theorem settingLine_keyLine (s : Settings) (key : Key) :
    SettingLine (s.keyLine key) key.name (s.value key) := by
  have hnone : Spaces [] := nofun
  have hspace : Spaces [' '] := List.forall_mem_singleton.mpr rfl
  have hline := SettingLine.intro hnone (.bare key.isBareKey) hspace hspace
    (s.valueText_value key) (.plain hnone .newline)
  simpa [keyLine, settingLine] using hline

/-- A document with the lines of some keys, as they are saved, and with lines between them that set
other keys to strings or truth values. -/
inductive SetsKeys (s : Settings) : List Char → List Key → List String → Prop where
  | nil : SetsKeys s [] [] []
  | key {cs : List Char} {keys : List Key} {others : List String} (key : Key)
    (h : SetsKeys s cs keys others) : SetsKeys s (s.keyLine key ++ cs) (key :: keys) others
  | other {written cs : List Char} {keys : List Key} {others : List String} {name : String}
    {v : Value} (hline : SettingLine written name v) (hname : ∀ key : Key, key.name ≠ name)
    (h : SetsKeys s cs keys others) : SetsKeys s (written ++ cs) keys (name :: others)

theorem SetsKeys.name_ne (h : SetsKeys s cs keys others) :
    ∀ name ∈ others, ∀ key : Key, key.name ≠ name := by
  induction h with
  | nil => exact nofun
  | key _ _ ih => exact ih
  | other _ hname _ ih => exact List.forall_mem_cons.mpr ⟨hname, ih⟩

/-- The keys are set in some order, each to its value. -/
theorem SetsKeys.exists_sets (h : SetsKeys s cs keys others) :
    ∃ entries, Sets cs entries ∧ (entries.map Prod.fst).Perm (keys.map Key.name ++ others) ∧
      ∀ key : Key, entries.get? key.name = if key ∈ keys then some (s.value key) else none := by
  induction h with
  | nil => exact ⟨[], .nil, .refl _, fun key => rfl⟩
  | @key cs keys others first _ ih =>
    obtain ⟨entries, hsets, hperm, hget⟩ := ih
    refine ⟨_, .cons (s.settingLine_keyLine first) hsets, hperm.cons first.name, fun key => ?_⟩
    by_cases hkey : key = first
    · subst key
      simp [Entries.get?]
    · have hname : (key.name == first.name) = false :=
        beq_eq_false_iff_ne.mpr (Key.name_injective.ne hkey)
      rw [Entries.get?, List.lookup_cons, hname]
      simp only [List.mem_cons, hkey, false_or]
      exact hget key
  | @other written cs keys others name v hline hname _ ih =>
    obtain ⟨entries, hsets, hperm, hget⟩ := ih
    refine ⟨_, .cons hline hsets, (hperm.cons name).trans List.perm_middle.symm, fun key => ?_⟩
    have hne : (key.name == name) = false := beq_eq_false_iff_ne.mpr (hname key)
    rw [Entries.get?, List.lookup_cons, hne]
    exact hget key

theorem valueOr_eq {α : Type} {key : Key} {default a : α} {read : Value → Option α}
    (h : entries.get? key.name = if key ∈ keys then some (s.value key) else none)
    (hread : read (s.value key) = some a) :
    valueOr entries key.name default read = some (if key ∈ keys then a else default) := by
  rw [valueOr, h]
  by_cases hmem : key ∈ keys <;> simp [hmem, hread]

theorem ofEntries?_eq_only
    (h : ∀ key : Key, entries.get? key.name = if key ∈ keys then some (s.value key) else none) :
    ofEntries? entries = some (s.only keys) := by
  let defaults : Settings := {}
  have hmarker : valueOr entries "marker_prefix" defaults.marker text? =
      some (s.only keys).marker := valueOr_eq (h .marker) rfl
  have haggregate : valueOr entries "aggregate_category" defaults.aggregate text? =
      some (s.only keys).aggregate := valueOr_eq (h .aggregate) rfl
  have hstrict : valueOr entries "strict" defaults.strict boolean? =
      some (s.only keys).strict := valueOr_eq (h .strict) rfl
  have hformat : valueOr entries "format" defaults.format format? =
      some (s.only keys).format := valueOr_eq (h .format) (Report.Format.ofName?_name s.format)
  simp only [ofEntries?, hmarker, haggregate, hstrict, hformat, defaults]
  rfl

/-- A document that sets no key twice holds the values of the keys it sets, and any other document
of such lines holds nothing. -/
theorem SetsKeys.ofDocument?_eq (h : SetsKeys s cs keys others) :
    ofDocument? cs = if keys.Nodup ∧ others.Nodup then some (s.only keys) else none := by
  obtain ⟨entries, hsets, hperm, hget⟩ := h.exists_sets
  have hnames : (entries.map Prod.fst).Nodup ↔ keys.Nodup ∧ others.Nodup := by
    rw [hperm.nodup_iff, List.nodup_append, List.nodup_map_iff Key.name_injective]
    have hapart : ∀ name ∈ keys.map Key.name, ∀ other ∈ others, name ≠ other := by
      intro name hname other hother
      obtain ⟨key, -, rfl⟩ := List.mem_map.mp hname
      exact h.name_ne other hother key
    exact ⟨fun hall => ⟨hall.1, hall.2.1⟩, fun hall => ⟨hall.1, hall.2, hapart⟩⟩
  rw [ofDocument?, hsets.read?_eq]
  by_cases hall : keys.Nodup ∧ others.Nodup
  · rw [if_pos (hnames.mpr hall), if_pos hall]
    exact ofEntries?_eq_only hget
  · rw [if_neg (mt hnames.mp hall), if_neg hall]
    rfl

theorem SetsKeys.ofBytes_eq_ok (h : SetsKeys s cs keys others) (path : String)
    (hkeys : keys.Nodup) (hothers : others.Nodup) :
    ofBytes path (Text.encode cs) = .ok (s.only keys) := by
  rw [ofBytes, Text.decode?_encode]
  simp [h.ofDocument?_eq, hkeys, hothers]

theorem SetsKeys.ofBytes_eq_error (h : SetsKeys s cs keys others) (path : String)
    (hrepeated : ¬ (keys.Nodup ∧ others.Nodup)) :
    ofBytes path (Text.encode cs) = .error (.malformed path) := by
  rw [ofBytes, Text.decode?_encode]
  simp [h.ofDocument?_eq, hrepeated]

theorem document_eq (s : Settings) :
    s.document = [Key.marker, .aggregate, .strict, .format].flatMap s.keyLine := by
  simp [document, keyLine, Key.name, valueText]

theorem setsKeys_flatMap (s : Settings) (keys : List Key) :
    SetsKeys s (keys.flatMap s.keyLine) keys [] := by
  induction keys with
  | nil => exact .nil
  | cons key keys ih => exact .key key ih

theorem ofBytes_document (path : String) (s : Settings) :
    ofBytes path (Text.encode s.document) = .ok s := by
  have hall : s.only [.marker, .aggregate, .strict, .format] = s := by simp [only]
  have hkeys := s.setsKeys_flatMap [.marker, .aggregate, .strict, .format]
  rw [document_eq, hkeys.ofBytes_eq_ok path (by decide) .nil, hall]

end Settings
end EvalDiff
