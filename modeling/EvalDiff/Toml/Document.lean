import EvalDiff.Toml.Value

/-!
# Building tables

A document is a sequence of statements: headers, and keys with values for the table under the
latest header.  A key may be set once; a table may have one header; and a dotted key adds only
to tables that dotted keys made.  The table under the latest header is kept apart from the
others until the next header, so it cannot be reached while it is filled.
-/

namespace EvalDiff
namespace Toml

/-- A line of a document.  Keys and headers are paths with at least one part. -/
inductive Statement where
  | setting (path : List String) (key : String) (value : Value)
  | header (path : List String) (key : String)
  | arrayHeader (path : List String) (key : String)
deriving Repr

/-- Changes the table at the end of a path, making the tables that are missing on the way.  On
the way of a dotted key a table with a header or braces is refused; a header passes through
tables of any origin but braces, and through an array of tables into its latest one.  The
change is told whether the table at the end was made by dotted keys. -/
def changeAt (isDotted : Bool) (change : Bool → Entries → Option Entries) :
    List String → Bool → Entries → Option Entries
  | [], endsDotted, entries => change endsDotted entries
  | key :: path, _, entries =>
    match entries.get? key with
    | none => do
      let inner ← changeAt isDotted change path isDotted []
      return entries.set key (.table (if isDotted then .dotted else .passed) inner)
    | some (.table .inline _) => none
    | some (.table .header inner) =>
      if isDotted then none
      else do
        let inner ← changeAt isDotted change path false inner
        return entries.set key (.table .header inner)
    | some (.table origin inner) => do
      let inner ← changeAt isDotted change path (origin = .dotted) inner
      return entries.set key (.table origin inner)
    | some (.tables rows) =>
      match rows.getLast? with
      | none => none
      | some row => do
        let row ← changeAt isDotted change path false row
        return entries.set key (.tables (rows.dropLast ++ [row]))
    | some _ => none

/-- Sets a key in the table that a dotted path leads to.  A path that ends in a table not made
by dotted keys, or passes one, is refused, and so is a key that is there already. -/
def insertAt (path : List String) (key : String) (value : Value) : Entries → Option Entries :=
  changeAt true
    (fun endsDotted entries =>
      if endsDotted = path.isEmpty then none
      else if (entries.get? key).isSome then none
      else some (entries.set key value))
    path false

def inlineEntries (settings : List (List String × String × Value)) : Option Entries :=
  settings.foldlM (fun entries (path, key, value) => insertAt path key value entries) []

inductive Place where
  | root
  | under (path : List String) (key : String)
  | inArray (path : List String) (key : String)
deriving DecidableEq, Repr

/-- A document being built: the finished tables, and the table being filled with its place. -/
structure Draft where
  root : Entries
  place : Place
  current : Entries

namespace Draft

def empty : Draft := { root := [], place := .root, current := [] }

/-- The document with the current table put in its place. -/
def close (d : Draft) : Option Entries :=
  match d.place with
  | .root => some d.current
  | .under path key =>
    changeAt false (fun _ entries => some (entries.set key (.table .header d.current))) path
      false d.root
  | .inArray path key =>
    changeAt false
      (fun _ entries =>
        match entries.get? key with
        | none => some (entries.set key (.tables [d.current]))
        | some (.tables rows) => some (entries.set key (.tables (rows ++ [d.current])))
        | some _ => none)
      path false d.root

/-- What the table under a new header starts with: nothing, or what a table only passed so far
holds. -/
def reopened : Option Value → Option Entries
  | none => some []
  | some (.table .passed entries) => some entries
  | some _ => none

def entriesAt : List String → Entries → Entries
  | [], entries => entries
  | key :: path, entries =>
    match entries.get? key with
    | some (.table _ inner) => entriesAt path inner
    | some (.tables rows) => entriesAt path (rows.getLastD [])
    | _ => []

def step (d : Draft) : Statement → Option Draft
  | .setting path key value => do
    return { d with current := ← insertAt path key value d.current }
  | .header path key => do
    let root ← d.close
    let found := (entriesAt path root).get? key
    let current ← reopened found
    let root ← changeAt false (fun _ entries => some (entries.erase key)) path false root
    return { root, place := .under path key, current }
  | .arrayHeader path key => do
    let root ← d.close
    let root ← changeAt false
      (fun _ entries =>
        match entries.get? key with
        | none => some (entries.set key (.tables []))
        | some (.tables rows) => some (entries.set key (.tables rows))
        | some _ => none)
      path false root
    return { root, place := .inArray path key, current := [] }

end Draft

def build (statements : List Statement) : Option Entries := do
  let draft ← statements.foldlM Draft.step Draft.empty
  draft.close

end Toml
end EvalDiff
