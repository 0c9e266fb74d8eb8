/-!
Sets of characters, given as ascending ranges of code points.
-/

namespace FormulaLang.Text

/-- Whether the code point of `c` lies in one of the ranges. -/
def inRanges (ranges : List (Nat × Nat)) (c : Char) : Bool :=
  ranges.any fun (first, last) => first ≤ c.toNat && c.toNat ≤ last

end FormulaLang.Text
