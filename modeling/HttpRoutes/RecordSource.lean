/-!
# Values that records are read from

`RecordSource β` is what a format offers to whoever reads a record from its values `β`: texts,
sequences, and the fields of a record by their names. A record is read in the same way from every
format.
-/

namespace HttpRoutes

/-- The values of a format, as the reader of a record sees them. -/
class RecordSource (β : Type) where
  /-- The text that a value is. -/
  text? : β → Option String
  /-- The items of a sequence. -/
  items? : β → Option (List β)
  /-- What a value holds for each of the given fields, or `none` if it is no record of them. A
  sequence is a record that gives the fields in order. -/
  fields? : List String → β → Option (List (Option β))

/-- The first `count` fields of a record that is a sequence; those behind its end are left out. -/
def positional {β : Type} (count : Nat) (items : List β) : List (Option β) :=
  (items.take count).map some ++ List.replicate (count - items.length) none

end HttpRoutes
