import ExprImports.Toml.Value

/-!
# Building a TOML document

The lines of a document add to a table of tables. A table can be opened by a header
once; a table that was opened by a header cannot be added to by dotted keys, nor can
one be opened by a header that dotted keys made or added to; a table in braces is
complete; and no key is given twice.
-/

set_option autoImplicit false

namespace ExprImports.Toml

/-- Changes the table at the end of a path and makes the tables on the way that do
not exist. The path goes through the last table of an array of tables. The change
is told how the table came about. -/
def changeAt (dotted : Bool) (change : TableOrigin → Entries → Option Entries) :
    List String → TableOrigin → Entries → Option Entries
  | [], origin, entries => change origin entries
  | key :: path, _, entries =>
    match entries.lookup key with
    | none => do
      let origin : TableOrigin := if dotted then .dotted else .implied
      let inner ← changeAt dotted change path origin []
      return entries ++ [(key, .table origin inner)]
    | some (.table origin inner) =>
      if origin = .inline || (dotted && origin = .header) then none
      else do
        let origin : TableOrigin := if dotted then .dotted else origin
        let inner ← changeAt dotted change path origin inner
        return entries.replace key (.table origin inner)
    | some (.array true items) =>
      match items.getLast? with
      | some (.table origin inner) => do
        let inner ← changeAt dotted change path origin inner
        return entries.replace key (.array true (items.dropLast ++ [.table origin inner]))
      | _ => none
    | some _ => none

/-- A path as the steps before its last key, and that key. -/
def splitPath? (path : List String) : Option (List String × String) :=
  path.getLast?.map fun key => (path.dropLast, key)

/-- Gives a value to a dotted key of a table. -/
def assign (path : List String) (value : Value) (entries : Entries) : Option Entries := do
  let (steps, key) ← splitPath? path
  let addNew (origin : TableOrigin) (entries : Entries) : Option Entries :=
    if !steps.isEmpty && origin ≠ .dotted then none
    else if (entries.lookup key).isSome then none
    else some (entries ++ [(key, value)])
  changeAt true addNew steps .header entries

/-- Opens the table of a header. -/
def openTable (path : List String) (entries : Entries) : Option Entries := do
  let (steps, key) ← splitPath? path
  let openLast (_ : TableOrigin) (entries : Entries) : Option Entries :=
    match entries.lookup key with
    | none => some (entries ++ [(key, .table .header [])])
    | some (.table .implied inner) => some (entries.replace key (.table .header inner))
    | some _ => none
  changeAt false openLast steps .header entries

/-- Opens the next table of an array of tables. -/
def openArrayTable (path : List String) (entries : Entries) : Option Entries := do
  let (steps, key) ← splitPath? path
  let openNext (_ : TableOrigin) (entries : Entries) : Option Entries :=
    match entries.lookup key with
    | none => some (entries ++ [(key, .array true [.table .header []])])
    | some (.array true items) =>
      some (entries.replace key (.array true (items ++ [.table .header []])))
    | some _ => none
  changeAt false openNext steps .header entries

/-- A document as far as it has been read: its root table, and the header that is
open. -/
structure Document where
  root : Entries := []
  header : List String := []
  deriving Inhabited

/-- Gives a value to a dotted key of the table that is open. -/
def Document.assign (document : Document) (path : List String) (value : Value) :
    Option Document := do
  let root ← changeAt false (fun _ entries => Toml.assign path value entries) document.header
    .header document.root
  return { document with root }

end ExprImports.Toml
