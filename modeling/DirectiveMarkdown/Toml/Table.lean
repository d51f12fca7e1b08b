import DirectiveMarkdown.Toml.Value

/-! Adding to tables. Each table is brought about in one place; what a later line may still add to
it depends on how it was. -/
namespace DirectiveMarkdown.Toml

namespace Entries

/-- Changes the value of a key, or gives one to a key without. -/
def alter (key : Text) (change : Option Value → Option Value) : Entries → Option Entries
  | [] => (change none).map fun value => [(key, value)]
  | (k, value) :: rest =>
    if k = key then (change (some value)).map fun value => (k, value) :: rest
    else (alter key change rest).map fun rest => (k, value) :: rest

end Entries

namespace Value

/-- Changes the last of several values. -/
def alterLast (change : Value → Option Value) : List Value → Option (List Value)
  | [] => none
  | [value] => (change value).map fun value => [value]
  | value :: rest => (alterLast change rest).map fun rest => value :: rest

/-- Changes the table that a path leads to from a table. Tables that are missing on the way are
made. The last table of an array stands for the array. A path that is written with dots in an
assignment may not enter a table that a header made, and no path may enter an inline table. -/
def descend (assigned : Bool) (change : TableOrigin → Entries → Option Value) :
    List Text → Value → Option Value
  | [], .table origin entries => change origin entries
  | key :: path, .table origin entries =>
    let enter : Option Value → Option Value
      | none => descend assigned change path (.table (if assigned then .dotted else .implied) [])
      | some (.table inner entries) =>
        if inner = .inline ∨ (assigned ∧ inner = .header) then none
        else descend assigned change path (.table inner entries)
      | some (.tables items) => (alterLast (descend assigned change path) items).map .tables
      | some _ => none
    (Entries.alter key enter entries).map (.table origin)
  | _, _ => none

/-- A table with one more entry, whose key must be new. -/
def insertNew (key : Text) (value : Value) (origin : TableOrigin) (entries : Entries) :
    Option Value :=
  (Entries.alter key (fun | none => some value | some _ => none) entries).map (.table origin)

/-- A table with a value assigned to a path. Keys in front of the last must lead to a table that
such paths made. -/
def assign (table : Value) (path : List Text) (value : Value) : Option Value :=
  match path.getLast? with
  | none => none
  | some key =>
    table.descend true (fun origin entries =>
      if (origin = .dotted) = path.dropLast.isEmpty then none
      else insertNew key value origin entries) path.dropLast

/-- A table in which a header has opened the table of a path. It must be new, or have come about on
the way to a table of another header. -/
def openTable (table : Value) (path : List Text) : Option Value :=
  match path.getLast? with
  | none => none
  | some key =>
    table.descend false (fun origin entries =>
      (Entries.alter key (fun
        | none => some (.table .header [])
        | some (.table .implied inner) => some (.table .header inner)
        | some _ => none) entries).map (.table origin)) path.dropLast

/-- A table in which a header has added a table to the array of a path. -/
def openElement (table : Value) (path : List Text) : Option Value :=
  match path.getLast? with
  | none => none
  | some key =>
    table.descend false (fun origin entries =>
      (Entries.alter key (fun
        | none => some (.tables [.table .header []])
        | some (.tables items) => some (.tables (items ++ [.table .header []]))
        | some _ => none) entries).map (.table origin)) path.dropLast

/-- The inline table of several assignments. -/
def ofAssignments (assignments : List (List Text × Value)) : Option Value :=
  assignments.foldlM (fun table (path, value) => table.assign path value) (.table .inline [])

end Value

end DirectiveMarkdown.Toml
