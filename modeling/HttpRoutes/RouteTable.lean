import HttpRoutes.Json.Value
import HttpRoutes.RecordSource
import HttpRoutes.Route

/-!
# Route tables

A route table is what a table file says, before anything in it is checked.

* `TableRow`, `Observability`, `RouteTable` : the table; what a file leaves out has a default;
* `RouteTable.read?` : a table from a value of some format;
* `RouteTable.toJson` : a table as a JSON value;
* `RouteTable.flatRoutes` : its rows as routes, if all of them are.
-/

namespace HttpRoutes

/-- A row of a table: the texts of a route. -/
structure TableRow where
  method : String
  path : String
  endpoint : String
  deriving DecidableEq, Repr

/-- How much a program that serves a table tells about itself. -/
structure Observability where
  logLevel : String := "info"
  deriving DecidableEq, Repr

structure RouteTable where
  /-- The endpoint of the requests that no row matches. -/
  missing : String := "NotFound"
  rows : List TableRow := []
  observability : Observability := {}
  deriving DecidableEq, Repr

def TableRow.route (row : TableRow) : Except RouteError (Route String) :=
  Route.parse row.method row.path row.endpoint

/-- The routes of a table in the order of its rows. The first bad row decides the error. -/
def RouteTable.flatRoutes (table : RouteTable) : Except RouteError (List (Route String)) :=
  table.rows.mapM TableRow.route

/-! ## Reading -/

section Reading

variable {β : Type} [RecordSource β]

/-- What `read` makes of a field, or `default` if the field is left out. -/
def fieldOr {γ : Type} (read : β → Option γ) (default : γ) : Option β → Option γ
  | none => some default
  | some value => read value

/-- A row; no field may be left out. -/
def TableRow.read? (value : β) : Option TableRow := do
  let [some method, some path, some endpoint] ←
      RecordSource.fields? ["method", "path", "endpoint"] value
    | none
  return ⟨← RecordSource.text? method, ← RecordSource.text? path, ← RecordSource.text? endpoint⟩

def TableRow.readAll? (value : β) : Option (List TableRow) := do
  (← RecordSource.items? value).mapM TableRow.read?

def Observability.read? (value : β) : Option Observability := do
  let [logLevel] ← RecordSource.fields? ["log_level"] value | none
  return ⟨← fieldOr RecordSource.text? ({} : Observability).logLevel logLevel⟩

def RouteTable.read? (value : β) : Option RouteTable := do
  let [missing, rows, observability] ←
      RecordSource.fields? ["missing", "routes", "observability"] value
    | none
  return ⟨← fieldOr RecordSource.text? ({} : RouteTable).missing missing,
    ← fieldOr TableRow.readAll? ({} : RouteTable).rows rows,
    ← fieldOr Observability.read? ({} : RouteTable).observability observability⟩

end Reading

/-! ## Writing -/

def TableRow.toJson (row : TableRow) : Json :=
  .record [("method", .ofString row.method), ("path", .ofString row.path),
    ("endpoint", .ofString row.endpoint)]

/-- A table as a JSON object, defaults written out. -/
def RouteTable.toJson (table : RouteTable) : Json :=
  .record [("missing", .ofString table.missing),
    ("routes", .array (table.rows.map TableRow.toJson)),
    ("observability", .record [("log_level", .ofString table.observability.logLevel)])]

end HttpRoutes
