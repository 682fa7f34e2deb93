import HttpRoutes.Json.Value
import HttpRoutes.RecordSource
import HttpRoutes.RequestLine

/-!
# Request lines as records

A request line is the record of its method and its path. Neither is checked when it is read.
-/

namespace HttpRoutes.RequestLine

def toJson (line : RequestLine) : Json :=
  .record [("method", .ofString line.method), ("path", .ofString line.path)]

/-- The request line of a record; no field may be left out. -/
def read? {β : Type} [RecordSource β] (value : β) : Option RequestLine := do
  let [some method, some path] ← RecordSource.fields? ["method", "path"] value | none
  return ⟨← RecordSource.text? method, ← RecordSource.text? path⟩

end HttpRoutes.RequestLine
