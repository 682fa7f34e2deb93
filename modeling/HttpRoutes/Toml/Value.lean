/-!
# TOML values

`Toml.Value` is a value of a TOML document. Tables and arrays remember how they came about, because
that decides what later lines may add to them.
-/

namespace HttpRoutes.Toml

/-- How a table came about. -/
inductive TableOrigin where
  /-- It is the document, or has a header of its own. -/
  | header
  /-- Only headers of tables inside it have been met. -/
  | parent
  | dotted
  | braces
  deriving DecidableEq, Repr

/-- A value. Numbers other than integers, dates and times are kept as they are written. -/
inductive Value where
  | text (content : String)
  | integer (value : Int)
  | float (written : String)
  | boolean (value : Bool)
  | dateTime (written : String)
  /-- `fromHeaders` tells the arrays whose items have headers from those between brackets. -/
  | array (fromHeaders : Bool) (items : List Value)
  | table (origin : TableOrigin) (entries : List (String × Value))

/-- The keys of a table with their values, in order. -/
abbrev Entries := List (String × Value)

end HttpRoutes.Toml
