/-!
# Ranges of code points

* `CodeRange` : a first and a last code point;
* `inRanges rs c` : the code point of `c` lies in one of the ranges `rs`.
-/

namespace HttpRoutes.Text

abbrev CodeRange := Nat × Nat

/-- Whether the code point of `c` lies in one of the ranges. -/
def inRanges (ranges : List CodeRange) (c : Char) : Bool :=
  ranges.any fun (first, last) => first ≤ c.toNat && c.toNat ≤ last

end HttpRoutes.Text
