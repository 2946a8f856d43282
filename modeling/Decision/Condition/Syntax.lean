import Decision.Value.Compare
import Decision.Value.Identity

/-!
# Conditions

What the input cell of a rule can say about the value it is tested against.

The tested value itself never appears. A test names only the other side of a
comparison, or the two bounds of a range, and each of those is a literal or the
name of a variable. A cell holds either several tests of which one has to hold,
or several of which none may hold, or no test at all.

The two brackets that can close the same kind of bound, `)` and `[`, leave no
trace here: a bound is its operand and whether it belongs to the range.

## Main definitions

* `Operand`: A literal, or the name of a variable.
* `Bound`: One end of a range.
* `Test`: A comparison or a range.
* `Condition`: The content of an input cell.
-/

namespace Decision

/-- What a value is compared with: a literal, or the variable of a name. -/
inductive Operand where
  | literal (value : Value)
  | named (name : String)
deriving DecidableEq

/-- One end of a range, and whether it belongs to the range. -/
structure Bound where
  operand : Operand
  inclusive : Bool
deriving DecidableEq

/-- A single test of a value. -/
inductive Test where
  /-- The value stands in a relation to the operand. -/
  | compare (relation : Relation) (operand : Operand)
  /-- The value lies between two bounds. -/
  | between (low high : Bound)
deriving DecidableEq

/-- The content of an input cell. -/
inductive Condition where
  /-- Every value will do. -/
  | any
  /-- One of the tests has to hold. -/
  | anyOf (tests : List Test)
  /-- None of the tests may hold. -/
  | noneOf (tests : List Test)
deriving DecidableEq

/-- The relation to the low end of a range. -/
def Bound.lowRelation (bound : Bound) : Relation := if bound.inclusive then .atLeast else .above

/-- The relation to the high end of a range. -/
def Bound.highRelation (bound : Bound) : Relation := if bound.inclusive then .atMost else .below

end Decision
