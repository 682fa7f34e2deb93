import HttpRoutes.Json.Value
import HttpRoutes.RecordSource

/-!
# Records in JSON

A record is an object, each field in it at most once, or an array with no more items than the
record has fields. Other members of an object are passed over.
-/

namespace HttpRoutes.Json

def text? : Json → Option String
  | text content => content
  | _ => none

def items? : Json → Option (List Json)
  | array items => some items
  | _ => none

/-- The value of the only member with a name, `some none` if there is no such member. -/
def member? (members : List (Option String × Json)) (name : String) : Option (Option Json) :=
  match members.filter (·.1 == some name) with
  | [] => some none
  | [(_, value)] => some (some value)
  | _ => none

/-- What a value holds for each of the fields. Every name in an object has to be a string. -/
def fields? (names : List String) : Json → Option (List (Option Json))
  | array items =>
    if items.length ≤ names.length then some (positional names.length items) else none
  | object members => if members.all (·.1.isSome) then names.mapM (member? members) else none
  | _ => none

instance : RecordSource Json := ⟨text?, items?, fields?⟩

end HttpRoutes.Json
