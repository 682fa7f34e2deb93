/-!
# Command lines

* `Command`, `Invocation` : what a command line asks for;
* `Invocation.parse` : the request of the arguments, or `none` if they ask for nothing.

A table file may be named before the command. Options of a command may stand anywhere behind it up
to `--`, which makes plain arguments of all that follow.
-/

namespace HttpRoutes

inductive Command where
  /-- Show its routes, as JSON or as lines. -/
  | list (json : Bool)
  | resolve (method path : String)
  /-- Resolve the request lines of standard input. -/
  | resolveLines
  deriving DecidableEq, Repr

/-- What a command line asks for. -/
structure Invocation where
  table : String := "routes.toml"
  command : Command
  deriving DecidableEq, Repr

namespace Invocation

/-! ## Arguments of the commands -/

/-- Arguments sorted into options and plain arguments. -/
structure Sorted where
  flags : List String := []
  plain : List String := []
  deriving DecidableEq, Repr

/-- Whether an argument is an option: a dash and something behind it. -/
def isOption (arg : String) : Bool :=
  match arg.toList with
  | '-' :: _ :: _ => true
  | _ => false

/-- Sorts arguments, in order. The first `--` is neither. -/
def sort : List String → Sorted
  | [] => {}
  | arg :: args =>
    if arg = "--" then { plain := args }
    else
      let sorted := sort args
      if isOption arg then { sorted with flags := arg :: sorted.flags }
      else { sorted with plain := arg :: sorted.plain }

def parseList (args : List String) : Option Command :=
  match sort args with
  | ⟨[], []⟩ => some (.list false)
  | ⟨["--json"], []⟩ => some (.list true)
  | _ => none

/-- The command `match`: a method and a path, or the option to read lines. -/
def parseMatch (args : List String) : Option Command :=
  match sort args with
  | ⟨[], [method, path]⟩ => some (.resolve method path)
  | ⟨["--stdin"], []⟩ => some .resolveLines
  | _ => none

/-! ## The command and what stands before it -/

/-- The command that a name and its arguments are. -/
def parseCommand (name : String) (args : List String) : Option Command :=
  if name = "list" then parseList args
  else if name = "match" then parseMatch args
  else none

/-- What an argument in front of the command says about the table file. -/
inductive TableOption where
  | absent
  | next
  | attached (file : String)
  deriving DecidableEq, Repr

/-- The table option in an argument: `--routes` or `-r`, the file behind it, after an equals sign
or, with the short name, right behind it. -/
def tableOption (arg : String) : TableOption :=
  if arg = "--routes" ∨ arg = "-r" then .next
  else
    match "--routes=".toList.isPrefixOf? arg.toList with
    | some file => .attached (String.ofList file)
    | none =>
      match arg.toList with
      | '-' :: 'r' :: '=' :: file => .attached (String.ofList file)
      | '-' :: 'r' :: file => .attached (String.ofList file)
      | _ => .absent

/-- An invocation with a command and possibly a table file, which has a name. -/
def withTable (file : String) (command : Command) : Option Invocation :=
  if file = "" then none else some ⟨file, command⟩

/-- The request of the arguments. The table option stands at most once and only before the
command, and its file does not look like an option. -/
def parse : List String → Option Invocation
  | [] => none
  | name :: args =>
    match tableOption name with
    | .absent => (parseCommand name args).map fun command => { command }
    | .attached file =>
      match args with
      | [] => none
      | name :: args => (parseCommand name args).bind (withTable file)
    | .next =>
      match args with
      | file :: name :: args =>
        if isOption file then none else (parseCommand name args).bind (withTable file)
      | _ => none

end Invocation

end HttpRoutes
