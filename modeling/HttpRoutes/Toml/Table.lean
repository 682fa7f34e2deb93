import HttpRoutes.Toml.Value

/-!
# Building TOML tables

A key stands once in a table, and a table is opened once.

* `Entries.insert?` : puts a value under a key with dots;
* `Entries.openTable?`, `Entries.openItem?` : what a header does, with one pair of brackets and with
  two;
* `Entries.within?` : applies a change to the table that a header leads to.
-/

namespace HttpRoutes.Toml.Entries

/-- The entries with another value under a key that is there. -/
def replace (entries : Entries) (key : String) (value : Value) : Entries :=
  entries.map fun entry => if entry.1 == key then (key, value) else entry

/-- A change to a table, which may depend on how the table came about. -/
abbrev Change := TableOrigin → Entries → Option Entries

/-- Applies a change to the table at the end of `path`, seen from a table of the given origin.
Tables that are not there yet are made, with the origin `made`. An array of headers stands for its
last item. Values and tables between braces are never entered; with `made = .dotted`, neither are
tables that have a header. -/
def descend (made : TableOrigin) (change : Change) (path : List String) : Change :=
  match path with
  | [] => change
  | key :: path => fun _ entries =>
    match entries.lookup key with
    | none =>
      (descend made change path made []).map fun inner => entries ++ [(key, .table made inner)]
    | some (.table origin inner) =>
      if origin = .braces ∨ (made = .dotted ∧ origin = .header) then none
      else (descend made change path origin inner).map fun inner =>
        entries.replace key (.table origin inner)
    | some (.array true items) =>
      match items.getLast? with
      | some (.table origin inner) =>
        (descend made change path origin inner).map fun inner =>
          entries.replace key (.array true (items.dropLast ++ [.table origin inner]))
      | _ => none
    | some _ => none

def add (key : String) (value : Value) : Change := fun _ entries =>
  match entries.lookup key with
  | none => some (entries ++ [(key, value)])
  | some _ => none

/-- Puts a value under a key whose parts before the last are `path`. A table that such a path ends
in has to be made by dots itself. -/
def insert? (path : List String) (key : String) (value : Value) : Change :=
  descend .dotted
    (fun origin entries =>
      if path ≠ [] ∧ origin ≠ .dotted then none else add key value origin entries)
    path

/-- Opens the table `key` in the table that `path` leads to. It must not be there, unless only
headers of tables inside it have been met. -/
def openTable? (path : List String) (key : String) : Change :=
  descend .parent
    (fun _ entries =>
      match entries.lookup key with
      | none => some (entries ++ [(key, .table .header [])])
      | some (.table .parent inner) => some (entries.replace key (.table .header inner))
      | some _ => none)
    path

/-- Adds an item to the array `key` in the table that `path` leads to, the first item making the
array. -/
def openItem? (path : List String) (key : String) : Change :=
  descend .parent
    (fun _ entries =>
      match entries.lookup key with
      | none => some (entries ++ [(key, .array true [.table .header []])])
      | some (.array true items) =>
        some (entries.replace key (.array true (items ++ [.table .header []])))
      | some _ => none)
    path

def within? (header : List String) (change : Change) : Change :=
  descend .parent change header

end HttpRoutes.Toml.Entries
