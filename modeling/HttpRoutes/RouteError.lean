import HttpRoutes.Text.Quoted

/-!
# What can be wrong with a route or a request line

* `RouteError` : the causes;
* `RouteError.message` : the wording of each.
-/

namespace HttpRoutes

/-- Why a text is no method, no path or no request line. -/
inductive RouteError where
  | unknownMethod (text : String)
  | missingLeadingSlash (path : String)
  | emptyParamName (path : String)
  /-- A segment of a path has braces that do not enclose all of it. -/
  | malformedSegment (path segment : String)
  | malformedRequestLine (line : String)
  deriving DecidableEq, Repr

def RouteError.message : RouteError → String
  | .unknownMethod text => "unknown HTTP method: " ++ Text.quoted text
  | .missingLeadingSlash path => "path " ++ Text.quoted path ++ " must start with '/'"
  | .emptyParamName path =>
    "path " ++ Text.quoted path ++ " contains a parameter with an empty name"
  | .malformedSegment path segment =>
    "segment " ++ Text.quoted segment ++ " of path " ++ Text.quoted path ++
      " has unbalanced braces"
  | .malformedRequestLine line => "malformed request line: " ++ Text.quoted line

end HttpRoutes
