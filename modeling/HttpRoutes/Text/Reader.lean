/-!
# Readers

A reader takes characters from the front of a text, or fails. A choice `p <|> q` runs `q` on the
same characters when `p` fails.

* `Reader α` : reads an `α`;
* `satisfy`, `char`, `word`, `takeWhile`, `atEnd` : the smallest readers;
* `many`, `count`, `sepBy`, `yields`, `captured` : readers made of others.
-/

namespace HttpRoutes.Text

/-- What reads an `α` from the front of a text. -/
abbrev Reader (α : Type) := StateT (List Char) Option α

namespace Reader

variable {α β : Type}

/-- The next character, if it is one of those. -/
def satisfy (p : Char → Bool) : Reader Char
  | c :: rest => if p c then some (c, rest) else none
  | [] => none

def char (c : Char) : Reader Char :=
  satisfy (· == c)

def word (text : String) : Reader Unit := fun cs =>
  (text.toList.isPrefixOf? cs).map fun rest => ((), rest)

/-- All characters up to the first that is not one of those. -/
def takeWhile (p : Char → Bool) : Reader (List Char) := fun cs =>
  some (cs.takeWhile p, cs.dropWhile p)

def atEnd : Reader Unit
  | [] => some ((), [])
  | _ :: _ => none

/-- What `p` reads over and over until it fails, but at most `limit` times. -/
def upTo (p : Reader α) : Nat → List Char → List α × List Char
  | 0, cs => ([], cs)
  | limit + 1, cs =>
    match p cs with
    | some (x, rest) => let (xs, rest) := upTo p limit rest; (x :: xs, rest)
    | none => ([], cs)

/-- What `p`, which takes a character at least, reads until it fails. -/
def many (p : Reader α) : Reader (List α) := fun cs =>
  some (upTo p cs.length cs)

def count (p : Reader α) : Nat → Reader (List α)
  | 0 => pure []
  | n + 1 => do return (← p) :: (← count p n)

/-- What `p` reads, once or more, with `separator` in between. -/
def sepBy (p : Reader α) (separator : Reader β) : Reader (List α) := do
  return (← p) :: (← many (separator *> p))

/-- `value`, for whatever `p` reads. -/
def yields (p : Reader α) (value : β) : Reader β := do
  let _ ← p
  return value

/-- The characters that `p` takes. -/
def captured (p : Reader α) : Reader (List Char) := fun cs =>
  (p cs).map fun (_, rest) => (cs.take (cs.length - rest.length), rest)

end Reader

end HttpRoutes.Text
