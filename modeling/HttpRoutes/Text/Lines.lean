/-!
# Lines of bytes

* `byteLines bs` : the lines of `bs`, without what ends them;
* `decode? bs` : the text that `bs` is in UTF-8.
-/

namespace HttpRoutes.Text

def lineFeed : UInt8 := 0x0A

def carriageReturn : UInt8 := 0x0D

/-- A line that a line feed ends, without the carriage return that may stand before that. -/
def dropReturn (line : List UInt8) : List UInt8 :=
  if line.getLast? = some carriageReturn then line.dropLast else line

/-- The lines of bytes: a line feed, alone or after a carriage return, ends each but the last, and
the last one counts if it is not empty. -/
def byteLines (bytes : List UInt8) : List (List UInt8) :=
  let pieces := bytes.splitOn lineFeed
  pieces.dropLast.map dropReturn ++ (pieces.getLast?.toList.filter (!·.isEmpty))

def decode? (bytes : List UInt8) : Option String :=
  String.fromUTF8? ⟨bytes.toArray⟩

end HttpRoutes.Text
