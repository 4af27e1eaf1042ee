/-! Sets of code points held as a sorted table of bounds. -/

namespace CodeAtlas.Text

/-- A set of numbers: the bounds alternate between the first member of a run and the first number
after it, in increasing order. -/
structure RangeTable where
  bounds : Array Nat

namespace RangeTable

/-- The position of the first bound above `x` in the slice from `lo` to `hi`. -/
def firstAbove (bounds : Array Nat) (x lo hi : Nat) : Nat :=
  if lo < hi then
    if bounds.getD ((lo + hi) / 2) 0 ≤ x then firstAbove bounds x ((lo + hi) / 2 + 1) hi
    else firstAbove bounds x lo ((lo + hi) / 2)
  else lo
termination_by hi - lo
decreasing_by all_goals omega

/-- A number belongs to the set when an odd number of bounds lie at or below it. -/
def contains (table : RangeTable) (x : Nat) : Bool :=
  firstAbove table.bounds x 0 table.bounds.size % 2 == 1

end RangeTable

end CodeAtlas.Text
