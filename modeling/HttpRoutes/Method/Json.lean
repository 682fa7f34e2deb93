import HttpRoutes.Json.Value
import HttpRoutes.Method

/-!
# Methods in JSON

A method is written as the string of its name. It is read from that, or from an object whose only
member has that name and the value null.
-/

namespace HttpRoutes.Method

def toJson (method : Method) : Json :=
  .ofString method.name

def ofJson? : Json → Option Method
  | .text (some name) => ofName? name
  | .object [(some name, .null)] => ofName? name
  | _ => none

end HttpRoutes.Method
