import HttpRoutes.RouteError

/-!
# Path templates

The path of a route is a template: a slash and then segments with slashes between them, each of
which is a text to be met literally or the name of a parameter between braces.

* `Segment` : a literal text or a parameter;
* `Segment.parse`, `Segment.render` : from its text in a path, and back with the slash before it;
* `Template` : the segments of a path;
* `Template.parse`, `Template.render` : from a path and back.
-/

namespace HttpRoutes

inductive Segment where
  /-- A text that the path has to have here. -/
  | literal (text : String)
  /-- Any text, bound to a name. -/
  | param (name : String)
  deriving DecidableEq, Repr

namespace Segment

def isParam : Segment → Bool
  | literal _ => false
  | param _ => true

def isBrace (c : Char) : Bool :=
  c == '\x7b' || c == '\x7d'

/-- What stands between an opening brace at the start and a closing brace at the end. -/
def braced? : List Char → Option (List Char)
  | '\x7b' :: rest => if rest.getLast? = some '\x7d' then some rest.dropLast else none
  | _ => none

/-- The segment that `piece` stands for in `path`. Braces enclose the whole of a name that is not
empty, or do not occur. -/
def parse (path : String) (piece : List Char) : Except RouteError Segment :=
  match braced? piece with
  | some [] => .error (.emptyParamName path)
  | some (c :: name) =>
    if (c :: name).any isBrace then .error (.malformedSegment path (String.ofList piece))
    else .ok (param (String.ofList (c :: name)))
  | none =>
    if piece.any isBrace then .error (.malformedSegment path (String.ofList piece))
    else .ok (literal (String.ofList piece))

/-- A segment as a path shows it, with the slash before it. -/
def render : Segment → String
  | literal text => "/" ++ text
  | param name => "/\x7b" ++ name ++ "\x7d"

end Segment

/-- The segments of a path, from left to right. -/
abbrev Template := List Segment

namespace Template

/-- The template that a path is. The first bad segment from the left decides the error. -/
def parse (path : String) : Except RouteError Template :=
  match path.toList with
  | '/' :: rest => (rest.splitOn '/').mapM (Segment.parse path)
  | _ => .error (.missingLeadingSlash path)

def render (template : Template) : String :=
  String.join (template.map Segment.render)

end Template

/-- Whether a path is a template; if not, why. -/
def validatePath (path : String) : Except RouteError Unit :=
  (Template.parse path).map fun _ => ()

end HttpRoutes
