import HttpRoutes.RouteError
import HttpRoutes.Text.Blank

/-!
# Request lines

* `RequestLine` : what routing looks at in a request, a method text and a path text;
* `RequestLine.parse`, `RequestLine.render` : from its text and back.
-/

namespace HttpRoutes

/-- The method and the path of a request, neither of them checked. -/
structure RequestLine where
  method : String
  path : String
  deriving DecidableEq, Repr

namespace RequestLine

/-- The request line that a text is: two fields with blanks around them, the second one starting
with a slash. -/
def parse (text : String) : Except RouteError RequestLine :=
  match Text.fields text.toList with
  | [method, '/' :: path] => .ok ⟨String.ofList method, String.ofList ('/' :: path)⟩
  | _ => .error (.malformedRequestLine text)

def render (line : RequestLine) : String :=
  line.method ++ " " ++ line.path

end RequestLine

end HttpRoutes
