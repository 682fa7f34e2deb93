/-!
# JSON values

* `Json` : a value as its text has it, members in order and repeated names kept;
* `Json.ofString` : the value of a string;
* `Json.record` : an object from names and values.
-/

namespace HttpRoutes

/-- A JSON value. A string literal may escape half of a surrogate pair on its own: it is well
formed, but no string, and stands as `none`. -/
inductive Json where
  | null
  | bool (value : Bool)
  | number (literal : String)
  | text (content : Option String)
  | array (items : List Json)
  | object (members : List (Option String × Json))

namespace Json

def ofString (s : String) : Json :=
  text (some s)

def record (members : List (String × Json)) : Json :=
  object (members.map fun (name, value) => (some name, value))

end Json

end HttpRoutes
