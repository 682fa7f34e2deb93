import HttpRoutes.Toml.DateTime
import HttpRoutes.Toml.Number
import HttpRoutes.Toml.Table
import HttpRoutes.Toml.Text

/-!
# TOML documents

* `value` : reads a value;
* `Statement`, `statement` : a line of a document;
* `State.apply?` : what a statement does to the tables read so far;
* `Toml.parse` : the table that a document is.
-/

namespace HttpRoutes.Toml

open Text Text.Reader

/-! ## Values -/

def scalar : Reader Value :=
  (Value.text <$> anyText) <|> (word "true").yields (.boolean true) <|>
    (word "false").yields (.boolean false) <|> dateTime <|> float <|> integer

def pair (value : Reader Value) : Reader (List String × Value) := do
  let parts ← key
  let _ ← char '='
  space
  return (parts, ← value)

def addPair (origin : TableOrigin) (entries : Entries) (entry : List String × Value) :
    Option Entries :=
  match entry.1.getLast? with
  | some last => Entries.insert? entry.1.dropLast last entry.2 origin entries
  | none => none

/-- Values between brackets. A comma may follow the last one. -/
def array (value : Reader Value) : Reader Value := do
  let _ ← char '['
  let items ←
    (do
      let items ← sepBy (filler *> value <* filler) (char ',')
      let _ ← (char ',').yields () <|> pure ()
      return items) <|>
    pure []
  filler
  let _ ← char ']'
  return .array false items

def inlineTable (value : Reader Value) : Reader Value := do
  let _ ← char '\x7b'
  let pairs ← sepBy (pair value <* space) (char ',') <|> pure []
  space
  let _ ← char '\x7d'
  match pairs.foldlM (addPair .braces) [] with
  | some entries => return .table .braces entries
  | none => failure

/-- A value in which arrays and inline tables nest at most `depth` deep. -/
def valueWithin : Nat → Reader Value
  | 0 => scalar
  | depth + 1 => scalar <|> array (valueWithin depth) <|> inlineTable (valueWithin depth)

def value : Reader Value :=
  valueWithin (nestingLimit - 1)

/-! ## Statements -/

inductive Statement where
  | blank
  | pair (path : List String) (value : Value)
  | table (path : List String)
  | item (path : List String)

def header (opening closing : String) : Reader (List String) := do
  word opening
  let path ← key
  word closing
  return path

def statement : Reader Statement := do
  space
  (do comment; newline <|> atEnd; return .blank) <|>
  (do newline; return .blank) <|>
  (do
    let path ← header "[[" "]]"
    lineEnd
    return .item path) <|>
  (do
    let path ← header "[" "]"
    lineEnd
    return .table path) <|>
  (do
    let (path, value) ← pair value
    lineEnd
    return .pair path value)

/-- The tables read so far, and the header that is in force. -/
structure State where
  root : Entries := []
  header : List String := []

def State.apply? (state : State) : Statement → Option State
  | .blank => some state
  | .pair path value => do
    let change := fun origin entries => addPair origin entries (path, value)
    return { state with root := ← Entries.within? state.header change .header state.root }
  | .table path => do
    return ⟨← Entries.openTable? path.dropLast (← path.getLast?) .header state.root, path⟩
  | .item path => do
    return ⟨← Entries.openItem? path.dropLast (← path.getLast?) .header state.root, path⟩

def statements : Reader (List Statement) := do
  word "\ufeff" <|> pure ()
  let lines ← many statement
  space
  atEnd
  return lines

def parse (text : String) : Option Value := do
  let (lines, _) ← statements text.toList
  let state ← lines.foldlM State.apply? {}
  return .table .header state.root

end HttpRoutes.Toml
