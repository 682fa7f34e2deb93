import HttpRoutes.RouteTable
import HttpRoutes.Text.Blank

/-!
# What is wrong with a route table

* `Problem`, `Problem.message` : the kinds of problem and their wording;
* `TableRow.FirstSeen` : the first row of each method and path;
* `RouteTable.problems` : every problem of a table: first those of its settings, then row by row.
-/

namespace HttpRoutes

/-- A problem of a table; rows are numbered from 0. -/
inductive Problem where
  | emptyMissing
  | unknownLogLevel (level : String)
  | badRoute (index : Nat) (cause : RouteError)
  | emptyEndpoint (index : Nat)
  /-- A row has the method and the path of an earlier one, of which `first` is the first. -/
  | duplicate (index first : Nat) (method path : String)
  deriving DecidableEq, Repr

def Problem.message : Problem → String
  | .emptyMissing => "missing endpoint must not be empty"
  | .unknownLogLevel level => "unknown log level " ++ Text.quoted level
  | .badRoute index cause => "route " ++ toString index ++ ": " ++ cause.message
  | .emptyEndpoint index => "route " ++ toString index ++ ": endpoint must not be empty"
  | .duplicate index first method path =>
    "route " ++ toString index ++ ": " ++ method ++ " " ++ path ++
      " is already declared by route " ++ toString first

/-- The log levels, in lower case. -/
def logLevels : List String :=
  ["trace", "debug", "info", "warn", "error"]

/-- Whether a log level is known; the case of its ASCII letters does not count. -/
def isLogLevel (level : String) : Bool :=
  logLevels.contains (String.ofList (level.toList.map Char.toLower))

namespace TableRow

/-- The method text and the path text of a row. -/
def key (row : TableRow) : String × String :=
  (row.method, row.path)

/-- The keys of rows, each with the first row that has it. -/
abbrev FirstSeen := List ((String × String) × Nat)

/-- What has been seen behind row `index`. A key that has been seen keeps its row. -/
def FirstSeen.note (seen : FirstSeen) (index : Nat) (row : TableRow) : FirstSeen :=
  match seen.lookup row.key with
  | some _ => seen
  | none => (row.key, index) :: seen

/-- The problem that a check reports about row `index`, if it fails. -/
def complaint {γ : Type} (index : Nat) : Except RouteError γ → List Problem
  | .ok _ => []
  | .error cause => [.badRoute index cause]

/-- The problems of row `index`: its method, its path, its endpoint and whether its key has been
seen before. -/
def problems (seen : FirstSeen) (index : Nat) (row : TableRow) : List Problem :=
  complaint index (Method.parse row.method) ++
    complaint index (validatePath row.path) ++
    (if Text.allBlank row.endpoint then [.emptyEndpoint index] else []) ++
    match seen.lookup row.key with
    | some first => [.duplicate index first row.method row.path]
    | none => []

/-- The problems of rows, the first of which is row `index`. -/
def problemsFrom (seen : FirstSeen) (index : Nat) : List TableRow → List Problem
  | [] => []
  | row :: rows => problems seen index row ++ problemsFrom (seen.note index row) (index + 1) rows

end TableRow

def RouteTable.problems (table : RouteTable) : List Problem :=
  (if Text.allBlank table.missing then [.emptyMissing] else []) ++
    (if isLogLevel table.observability.logLevel then []
      else [.unknownLogLevel table.observability.logLevel]) ++
    TableRow.problemsFrom [] 0 table.rows

end HttpRoutes
