import HttpRoutes.CommandLine.Invocation
import HttpRoutes.Grouping
import HttpRoutes.Json.Writer
import HttpRoutes.Listing
import HttpRoutes.Method.Json
import HttpRoutes.RequestLine.Json
import HttpRoutes.Resolution
import HttpRoutes.RouteTable.Load

/-!
# What the commands print

* `Outcome` : an exit code and what is printed before it;
* `Tree.listingText`, `Tree.listingJson` : the routes of a tree, as lines and as JSON;
* `Resolution.toJson`, `Tree.answerLine` : the answer to a request, on a line;
* `Tree.answerLines` : the answers to the request lines of an input;
* `Invocation.run` : the outcome of an invocation.
-/

namespace HttpRoutes

structure Outcome where
  exitCode : Nat
  output : String
  deriving DecidableEq, Repr

/-- The outcome with `text` printed before it. -/
def Outcome.after (text : String) (outcome : Outcome) : Outcome :=
  { outcome with output := text ++ outcome.output }

/-! ## Listings -/

def Route.toJson (route : Route String) : Json :=
  .record [("method", route.method.toJson), ("path", .ofString route.path),
    ("endpoint", .ofString route.endpoint)]

def Tree.listingJson (tree : Tree String) : Json :=
  .record [("missing", .ofString tree.missing), ("routes", .array (tree.routes.map Route.toJson))]

/-- The listing of a tree: a line for each route and one for all other requests. -/
def Tree.listingText (tree : Tree String) : String :=
  String.join (tree.routes.map fun route => route.display ++ "\n") ++
    "* -> " ++ tree.missing ++ "\n"

/-! ## Answers -/

/-- A request line and its answer as a JSON object. -/
def Resolution.toJson (line : RequestLine) (resolution : Resolution String) : Json :=
  .record [("request", line.toJson), ("endpoint", .ofString resolution.endpoint),
    ("params", .record (resolution.params.map fun (name, value) => (name, .ofString value)))]

/-- The answer to a request line, on a line of its own. -/
def Tree.answerLine (tree : Tree String) (line : RequestLine) : String :=
  ((tree.answer line).toJson line).compact ++ "\n"

/-- What is printed for a line of input: nothing if it is blank or no request line. -/
def Tree.answerText (tree : Tree String) (text : String) : String :=
  if Text.allBlank text then ""
  else
    match RequestLine.parse text with
    | .ok line => tree.answerLine line
    | .error _ => ""

/-- The answers to lines of input, up to the first that is not UTF-8. -/
def Tree.answerLines (tree : Tree String) : List (List UInt8) → Outcome
  | [] => ⟨0, ""⟩
  | bytes :: lines =>
    match Text.decode? bytes with
    | some text => (tree.answerLines lines).after (tree.answerText text)
    | none => ⟨1, ""⟩

/-! ## Runs -/

def RouteTable.tree (table : RouteTable) : Except RouteError (Tree String) := do
  Tree.ofRoutes table.missing (← table.flatRoutes)

def Command.run (tree : Tree String) (input : List UInt8) : Command → Outcome
  | list true => ⟨0, tree.listingJson.pretty ++ "\n"⟩
  | list false => ⟨0, tree.listingText⟩
  | resolve method path => ⟨0, tree.answerLine ⟨method, path⟩⟩
  | resolveLines => tree.answerLines (Text.byteLines input)

/-- The outcome of a command, given the table file and standard input. Without a table nothing is
printed. -/
def Command.runOn (file : FileContent) (input : List UInt8) (command : Command) : Outcome :=
  match RouteTable.load file with
  | .error _ => ⟨1, ""⟩
  | .ok table =>
    match table.tree with
    | .error _ => ⟨1, ""⟩
    | .ok tree => command.run tree input

/-- The outcome of arguments, given the files by their paths and standard input. -/
def runArguments (files : String → FileContent) (input : List UInt8) (args : List String) :
    Outcome :=
  match Invocation.parse args with
  | none => ⟨2, ""⟩
  | some invocation => invocation.command.runOn (files invocation.table) input

end HttpRoutes
