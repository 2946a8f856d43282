import Decision.Binary64.Rounding

/-!
# Doubles as 64-bit Integers

How a double is cut to an integer.

Cutting is not exact, and it never fails. What stands behind the point is lost,
a double out of range becomes the end of the range on its side, and a NaN
becomes 0. Whoever wants the integer that a double is has to ask first whether
it is one and whether it is in range.

The ends of the range make that second question a delicate one, because it is
asked of doubles. The least integer is a double. The greatest is not, and the
double it is rounded to is one more.

## Main definitions

* `Binary64.longFloor`, `Binary64.longCeiling`: The ends of the range, rounded.
* `Binary64.hasLong`: Whether a double is an integer in range.
* `Binary64.toLong`: A double cut to an integer.
-/

namespace Decision

namespace Binary64

/-- The least 64-bit integer, rounded. -/
def longFloor : Binary64 := ofInt Int64.minValue.toInt

/-- The greatest 64-bit integer, rounded. -/
def longCeiling : Binary64 := ofInt Int64.maxValue.toInt

/-- Whether a double is an integer, and not less than the one end of the range and
    less than the other. -/
def hasLong (x : Binary64) : Bool := x.isWhole && longFloor.isAtMost x && x.isLess longCeiling

/-- A double cut to a 64-bit integer. -/
def toLong (x : Binary64) : Int64 :=
  if x.isNaN then 0
  else if x.beforePoint < Int64.minValue.toInt then Int64.minValue
  else if Int64.maxValue.toInt < x.beforePoint then Int64.maxValue
  else Int64.ofInt x.beforePoint

end Binary64

end Decision
