import HttpRoutes.Json.Value

/-!
# Writing JSON

* `Json.escape c` : a character inside a string literal;
* `Json.literal s` : a string literal;
* `Json.compact v` : a value without white space;
* `Json.pretty v` : a value with one item or member a line, indented by two spaces a level.
-/

namespace HttpRoutes.Json

/-- A character inside a string literal. Only quotes, backslashes and the controls below U+0020 are
escaped, the latter by a letter where there is one. -/
def escape (c : Char) : List Char :=
  if c == '"' then ['\\', '"']
  else if c == '\\' then ['\\', '\\']
  else if c == '\x08' then ['\\', 'b']
  else if c == '\t' then ['\\', 't']
  else if c == '\n' then ['\\', 'n']
  else if c == '\x0c' then ['\\', 'f']
  else if c == '\r' then ['\\', 'r']
  else if c.toNat < 0x20 then
    ['\\', 'u', '0', '0', Nat.digitChar (c.toNat / 16), Nat.digitChar (c.toNat % 16)]
  else [c]

/-- A string literal. What is no string is written as half of a surrogate pair, and so reads as no
string again. -/
def literal : Option String → List Char
  | some s => '"' :: (s.toList.flatMap escape ++ ['"'])
  | none => ['"', '\\', 'u', 'd', '8', '0', '0', '"']

mutual

def compactChars : Json → List Char
  | null => ['n', 'u', 'l', 'l']
  | bool true => ['t', 'r', 'u', 'e']
  | bool false => ['f', 'a', 'l', 's', 'e']
  | number digits => digits.toList
  | text content => literal content
  | array items => '[' :: (compactItems items ++ [']'])
  | object members => '\x7b' :: (compactMembers members ++ ['\x7d'])

def compactItems : List Json → List Char
  | [] => []
  | [item] => compactChars item
  | item :: items => compactChars item ++ ',' :: compactItems items

def compactMembers : List (Option String × Json) → List Char
  | [] => []
  | [(name, value)] => literal name ++ ':' :: compactChars value
  | (name, value) :: members =>
    literal name ++ ':' :: (compactChars value ++ ',' :: compactMembers members)

end

def compact (value : Json) : String :=
  String.ofList (compactChars value)

/-- A new line, indented for a level. -/
def newline (level : Nat) : List Char :=
  '\n' :: List.replicate (2 * level) ' '

mutual

/-- The indented characters of a value that starts on a line of `level`. -/
def prettyChars (level : Nat) : Json → List Char
  | array (item :: items) =>
    '[' :: (prettyItems (level + 1) (item :: items) ++ newline level ++ [']'])
  | object (member :: members) =>
    '\x7b' :: (prettyMembers (level + 1) (member :: members) ++ newline level ++ ['\x7d'])
  | value => compactChars value

def prettyItems (level : Nat) : List Json → List Char
  | [] => []
  | [item] => newline level ++ prettyChars level item
  | item :: items => newline level ++ prettyChars level item ++ ',' :: prettyItems level items

def prettyMembers (level : Nat) : List (Option String × Json) → List Char
  | [] => []
  | [(name, value)] => newline level ++ literal name ++ ':' :: ' ' :: prettyChars level value
  | (name, value) :: members =>
    newline level ++ literal name ++ ':' :: ' ' :: prettyChars level value ++
      ',' :: prettyMembers level members

end

def pretty (value : Json) : String :=
  String.ofList (prettyChars 0 value)

end HttpRoutes.Json
