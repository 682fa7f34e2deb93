import HttpRoutes.RecordSource
import HttpRoutes.Toml.Value

/-!
# Records in TOML

A record is a table, or an array that has the fields in order. Keys and items that are no field are
passed over.
-/

namespace HttpRoutes.Toml.Value

def text? : Value → Option String
  | text content => some content
  | _ => none

def items? : Value → Option (List Value)
  | array _ items => some items
  | _ => none

/-- What a value holds for each of the fields. Other keys of a table are passed over, and so are the
items of an array behind the last field. A date or time is a record without any field. -/
def fields? (names : List String) : Value → Option (List (Option Value))
  | table _ entries => some (names.map fun name => entries.lookup name)
  | array _ items => some (positional names.length items)
  | dateTime _ => some (names.map fun _ => none)
  | _ => none

instance : RecordSource Value := ⟨text?, items?, fields?⟩

end HttpRoutes.Toml.Value
