import HttpRoutes.Text.Reader

/-!
# White space, strings and keys in TOML

* `space`, `newline`, `comment`, `filler` : what stands between the parts of a document;
* `basicText`, `literalText` and their multi-line forms; `anyText` : any of the four strings;
* `key` : the parts of a key.
-/

namespace HttpRoutes.Toml

open Text Text.Reader

/-! ## White space and comments -/

def isSpace (c : Char) : Bool :=
  c == ' ' || c == '\t'

/-- The characters that stand for themselves in comments and strings: tabs and all that are no
ASCII controls. -/
def isPlain (c : Char) : Bool :=
  c == '\t' || (0x20 ≤ c.toNat && c.toNat != 0x7F)

def space : Reader Unit := do
  let _ ← takeWhile isSpace

def newline : Reader Unit :=
  word "\n" <|> word "\r\n"

def comment : Reader Unit := do
  let _ ← char '#'
  let _ ← takeWhile isPlain

/-- Blanks, line breaks and comments, as they may stand inside brackets. -/
def filler : Reader Unit := do
  let _ ← many ((satisfy isSpace).yields () <|> newline <|> (comment *> newline))

/-- What may follow a statement on its line, and the end of that line. -/
def lineEnd : Reader Unit := do
  space
  comment <|> pure ()
  newline <|> atEnd

/-! ## Strings -/

def hexValue (c : Char) : Nat :=
  if c.isDigit then c.toNat - '0'.toNat else c.toLower.toNat - 'a'.toNat + 10

def isHexDigit (c : Char) : Bool :=
  c.isDigit || ('a' ≤ c.toLower && c.toLower ≤ 'f')

/-- The character with a code of `n` hexadecimal digits. -/
def codePoint (n : Nat) : Reader Char := do
  let digits ← count (satisfy isHexDigit) n
  let code := digits.foldl (fun code c => code * 16 + hexValue c) 0
  if code.isValidChar then return Char.ofNat code else failure

/-- The character that a backslash and what follows it stand for. -/
def escape : Reader Char := do
  let _ ← char '\\'
  (char 'b').yields '\x08' <|> (char 't').yields '\t' <|> (char 'n').yields '\n' <|>
    (char 'f').yields '\x0c' <|> (char 'r').yields '\r' <|> char '"' <|> char '\\' <|>
    (char 'u' *> codePoint 4) <|> (char 'U' *> codePoint 8)

def basicText : Reader (List Char) := do
  let _ ← char '"'
  let content ← many (satisfy (fun c => isPlain c && c != '"' && c != '\\') <|> escape)
  let _ ← char '"'
  return content

def literalText : Reader (List Char) := do
  let _ ← char '\''
  let content ← takeWhile fun c => isPlain c && c != '\''
  let _ ← char '\''
  return content

/-- A quote that does not start the three that close a multi-line string. -/
def innerQuote (quote : Char) : Reader Char
  | c :: rest =>
    if c == quote && !([quote, quote].isPrefixOf rest) then some (c, rest) else none
  | [] => none

/-- The closing quotes of a multi-line string. Up to two more right before them belong to it. -/
def closingQuotes (quote : Char) : Reader (List Char) := do
  let _ ← count (char quote) 3
  count (char quote) 2 <|> count (char quote) 1 <|> pure []

/-- A backslash at the end of a line, with all the white space up to the next other character. -/
def joinedLine : Reader (List Char) := do
  let _ ← char '\\'
  space
  newline
  let _ ← many ((satisfy isSpace).yields () <|> newline)
  return []

/-- A string between double quotes, three at each end, on any number of lines. -/
def multiLineBasicText : Reader (List Char) := do
  let _ ← count (char '"') 3
  newline <|> pure ()
  let content ← many <|
    (List.singleton <$> satisfy fun c => isPlain c && c != '"' && c != '\\') <|>
    newline.yields ['\n'] <|> joinedLine <|> (List.singleton <$> escape) <|>
    (List.singleton <$> innerQuote '"')
  return content.flatten ++ (← closingQuotes '"')

/-- A string between single quotes, three at each end, on any number of lines. -/
def multiLineLiteralText : Reader (List Char) := do
  let _ ← count (char '\'') 3
  newline <|> pure ()
  let content ← many <|
    satisfy (fun c => isPlain c && c != '\'') <|> newline.yields '\n' <|> innerQuote '\''
  return content ++ (← closingQuotes '\'')

def anyText : Reader String :=
  String.ofList <$>
    (multiLineBasicText <|> basicText <|> multiLineLiteralText <|> literalText)

/-! ## Keys -/

def isBare (c : Char) : Bool :=
  c.isAlphanum || c == '_' || c == '-'

def bareKey : Reader (List Char) := do
  return (← satisfy isBare) :: (← takeWhile isBare)

/-- The most parts of a key and the deepest nesting of values, both exclusive. -/
def nestingLimit : Nat := 80

/-- The parts of a key, blanks around them aside. -/
def key : Reader (List String) := do
  let part := space *> (String.ofList <$> (bareKey <|> basicText <|> literalText)) <* space
  let parts ← sepBy part (char '.')
  if parts.length < nestingLimit then return parts else failure

end HttpRoutes.Toml
