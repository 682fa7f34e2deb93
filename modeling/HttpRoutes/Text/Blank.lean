/-!
# Blank characters and the fields between them

* `isBlank c` : `c` has the Unicode property `White_Space`;
* `allBlank t` : `t` holds nothing but blanks;
* `fields cs` : the maximal runs of characters that are not blank, from left to right.
-/

namespace HttpRoutes.Text

/-- The characters with the Unicode property `White_Space`. -/
def isBlank (c : Char) : Bool :=
  let n := c.toNat
  (0x9 ≤ n && n ≤ 0xD) || n == 0x20 || n == 0x85 || n == 0xA0 || n == 0x1680 ||
    (0x2000 ≤ n && n ≤ 0x200A) || n == 0x2028 || n == 0x2029 || n == 0x202F || n == 0x205F ||
    n == 0x3000

/-- A text that is empty once the blanks at its ends are taken off. -/
def allBlank (text : String) : Bool :=
  text.toList.all isBlank

/-- The maximal runs of characters that are not blank. -/
def fields (cs : List Char) : List (List Char) :=
  (cs.splitOnP isBlank).filter (!·.isEmpty)

end HttpRoutes.Text
