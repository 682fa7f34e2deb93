import HttpRoutes.Text.GraphemeExtend
import HttpRoutes.Text.Unprintable

/-!
# Quoted text

Messages show a text they complain about between double quotes, so that every character of it can
be seen.

* `escaped c` : how `c` is written between the quotes;
* `quoted t` : the text `t` between double quotes.
-/

namespace HttpRoutes.Text

/-- `c` by its number: `\u`, then the code point in lower-case hexadecimal between braces. -/
def byNumber (c : Char) : List Char :=
  ['\\', 'u', '\x7b'] ++ Nat.toDigits 16 c.toNat ++ ['\x7d']

/-- A character inside quotes. Those with a short escape are written by it, those that would not be
seen on their own (they are not printed, or extend the character before) by number. -/
def escaped (c : Char) : List Char :=
  if c == '\x00' then ['\\', '0']
  else if c == '\t' then ['\\', 't']
  else if c == '\r' then ['\\', 'r']
  else if c == '\n' then ['\\', 'n']
  else if c == '\\' || c == '"' then ['\\', c]
  else if inRanges graphemeExtend c || inRanges unprintable c then byNumber c
  else [c]

def quoted (text : String) : String :=
  String.ofList ('"' :: (text.toList.flatMap escaped ++ ['"']))

end HttpRoutes.Text
