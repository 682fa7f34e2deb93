import HttpRoutes.Json.Value

/-!
# Reading JSON

Each reader takes the characters that are left and gives what it read and the rest, or `none` if
the text is no JSON.

* `Piece` : a character of a string literal, or an escaped half of a surrogate pair;
* `readPieces`, `joinPieces` : a string literal and the string it denotes;
* `readNumber` : a number;
* `readList` : items between commas up to a closing character;
* `readValue` : a value;
* `Json.parse` : the value that a text is.
-/

namespace HttpRoutes.Json

def isSpace (c : Char) : Bool :=
  c == ' ' || c == '\t' || c == '\n' || c == '\r'

def skipSpace (cs : List Char) : List Char :=
  cs.dropWhile isSpace

/-! ## String literals -/

/-- What a string literal is made of. -/
inductive Piece where
  | char (c : Char)
  | half (unit : Nat)
  deriving DecidableEq, Repr

/-- The piece that a four-digit escape stands for. -/
def Piece.ofUnit (unit : Nat) : Piece :=
  if 0xD800 ≤ unit && unit ≤ 0xDFFF then half unit else char (Char.ofNat unit)

def hexDigit? (c : Char) : Option Nat :=
  if '0' ≤ c && c ≤ '9' then some (c.toNat - '0'.toNat)
  else if 'a' ≤ c && c ≤ 'f' then some (c.toNat - 'a'.toNat + 10)
  else if 'A' ≤ c && c ≤ 'F' then some (c.toNat - 'A'.toNat + 10)
  else none

def hexUnit? (a b c d : Char) : Option Nat :=
  match hexDigit? a, hexDigit? b, hexDigit? c, hexDigit? d with
  | some a, some b, some c, some d => some (((a * 16 + b) * 16 + c) * 16 + d)
  | _, _, _, _ => none

/-- The character that a backslash and one character stand for. -/
def shortEscape? (c : Char) : Option Char :=
  if c == '"' || c == '\\' || c == '/' then some c
  else if c == 'b' then some '\x08'
  else if c == 'f' then some '\x0c'
  else if c == 'n' then some '\n'
  else if c == 'r' then some '\r'
  else if c == 't' then some '\t'
  else none

/-- The pieces of a string literal after its opening quote, and the rest after its closing one. -/
def readPieces : List Char → Option (List Piece × List Char)
  | [] => none
  | '"' :: rest => some ([], rest)
  | '\\' :: 'u' :: a :: b :: c :: d :: rest =>
    match hexUnit? a b c d, readPieces rest with
    | some unit, some (pieces, rest) => some (.ofUnit unit :: pieces, rest)
    | _, _ => none
  | '\\' :: c :: rest =>
    match shortEscape? c, readPieces rest with
    | some c, some (pieces, rest) => some (.char c :: pieces, rest)
    | _, _ => none
  | c :: rest =>
    if c.toNat < 0x20 then none
    else (readPieces rest).map fun (pieces, rest) => (.char c :: pieces, rest)

/-- The characters of a literal; a half that is not the first of a pair followed by the second has
none. -/
def joinPieces : List Piece → Option (List Char)
  | [] => some []
  | .char c :: pieces => (joinPieces pieces).map (c :: ·)
  | .half high :: .half low :: pieces =>
    if high < 0xDC00 && 0xDC00 ≤ low then
      (joinPieces pieces).map (Char.ofNat (0x10000 + (high - 0xD800) * 0x400 + (low - 0xDC00)) :: ·)
    else none
  | .half _ :: _ => none

/-- The string of a literal after its opening quote; `none` inside if it denotes no string. -/
def readText (cs : List Char) : Option (Option String × List Char) :=
  (readPieces cs).map fun (pieces, rest) => ((joinPieces pieces).map String.ofList, rest)

/-! ## Numbers -/

def readDigits (cs : List Char) : Option (List Char × List Char) :=
  if (cs.takeWhile Char.isDigit).isEmpty then none
  else some (cs.takeWhile Char.isDigit, cs.dropWhile Char.isDigit)

/-- Digits without a needless zero in front. -/
def readWhole (cs : List Char) : Option (List Char × List Char) :=
  match readDigits cs with
  | some ('0' :: _ :: _, _) => none
  | other => other

def readFraction : List Char → Option (List Char × List Char)
  | '.' :: rest => (readDigits rest).map fun (digits, rest) => ('.' :: digits, rest)
  | cs => some ([], cs)

def splitSign : List Char → List Char × List Char
  | '+' :: rest => (['+'], rest)
  | '-' :: rest => (['-'], rest)
  | cs => ([], cs)

def readExponent : List Char → Option (List Char × List Char)
  | [] => some ([], [])
  | c :: rest =>
    if c == 'e' || c == 'E' then
      let (sign, rest) := splitSign rest
      (readDigits rest).map fun (digits, rest) => (c :: (sign ++ digits), rest)
    else some ([], c :: rest)

/-- A number, by its literal. -/
def readNumber (cs : List Char) : Option (Json × List Char) :=
  let (sign, cs) := match cs with
    | '-' :: rest => (['-'], rest)
    | cs => ([], cs)
  match readWhole cs with
  | none => none
  | some (whole, cs) =>
    match readFraction cs with
    | none => none
    | some (fraction, cs) =>
      (readExponent cs).map fun (exponent, cs) =>
        (number (String.ofList (sign ++ whole ++ fraction ++ exponent)), cs)

/-! ## Values -/

/-- Items with commas between them up to `close`, at least one and at most `count`. -/
def readItems {β : Type} (close : Char) (item : List Char → Option (β × List Char)) :
    Nat → List Char → Option (List β × List Char)
  | 0, _ => none
  | count + 1, cs =>
    match item cs with
    | none => none
    | some (x, rest) =>
      match skipSpace rest with
      | [] => none
      | c :: rest =>
        if c == close then some ([x], rest)
        else if c == ',' then
          (readItems close item count rest).map fun (xs, rest) => (x :: xs, rest)
        else none

/-- Items with commas between them up to `close`, or just `close`. -/
def readList {β : Type} (close : Char) (item : List Char → Option (β × List Char))
    (cs : List Char) : Option (List β × List Char) :=
  match skipSpace cs with
  | [] => none
  | c :: rest => if c == close then some ([], rest) else readItems close item cs.length (c :: rest)

/-- A name, a colon and what `value` reads. -/
def readMember {β : Type} (value : List Char → Option (β × List Char)) (cs : List Char) :
    Option ((Option String × β) × List Char) :=
  match skipSpace cs with
  | '"' :: rest =>
    match readText rest with
    | none => none
    | some (name, rest) =>
      match skipSpace rest with
      | ':' :: rest => (value rest).map fun (v, rest) => ((name, v), rest)
      | _ => none
  | _ => none

/-- A value in which arrays and objects nest less than `depth` deep. -/
def readValue : Nat → List Char → Option (Json × List Char)
  | 0, _ => none
  | depth + 1, cs =>
    match skipSpace cs with
    | 'n' :: 'u' :: 'l' :: 'l' :: rest => some (null, rest)
    | 't' :: 'r' :: 'u' :: 'e' :: rest => some (bool true, rest)
    | 'f' :: 'a' :: 'l' :: 's' :: 'e' :: rest => some (bool false, rest)
    | '"' :: rest => (readText rest).map fun (content, rest) => (text content, rest)
    | '[' :: rest =>
      (readList ']' (readValue depth) rest).map fun (items, rest) => (array items, rest)
    | '\x7b' :: rest =>
      (readList '\x7d' (readMember (readValue depth)) rest).map fun (members, rest) =>
        (object members, rest)
    | other => readNumber other

/-- The value that a text is, white space around it aside. No text nests deeper than it is long. -/
def parse (text : String) : Option Json :=
  match readValue (text.toList.length + 1) text.toList with
  | some (value, rest) => if (skipSpace rest).isEmpty then some value else none
  | none => none

end HttpRoutes.Json
