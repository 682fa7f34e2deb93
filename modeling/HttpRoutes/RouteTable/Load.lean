import HttpRoutes.FileContent
import HttpRoutes.RouteTable.Problem
import HttpRoutes.Text.Lines
import HttpRoutes.Toml.Document
import HttpRoutes.Toml.Record

/-!
# Loading route tables

* `LoadError`, `LoadError.message` : why there is no table;
* `RouteTable.parse` : the table of a TOML text, checked;
* `RouteTable.load` : the table of a file, checked.
-/

namespace HttpRoutes

/-- Why a table cannot be loaded. -/
inductive LoadError where
  | file (fault : FileFault)
  /-- The text is no TOML, or its values are not those of a table. -/
  | malformed
  | invalid (problems : List Problem)
  deriving DecidableEq, Repr

def LoadError.message : LoadError → String
  | file fault => "IO error: " ++ fault.message
  | malformed => "Parse error"
  | invalid problems =>
    "Validation failed: " ++ ", ".intercalate (problems.map Problem.message)

namespace RouteTable

/-- The table itself, if it has no problems. -/
def validated (table : RouteTable) : Except LoadError RouteTable :=
  match table.problems with
  | [] => .ok table
  | problem :: problems => .error (.invalid (problem :: problems))

def parse (text : String) : Except LoadError RouteTable :=
  match (Toml.parse text).bind read? with
  | some table => table.validated
  | none => .error .malformed

def load : FileContent → Except LoadError RouteTable
  | .error fault => .error (.file fault)
  | .ok bytes =>
    match Text.decode? bytes with
    | some text => parse text
    | none => .error (.file .notUtf8)

end RouteTable

end HttpRoutes
