import Decision.Evaluation.Consultation
import Decision.Evaluation.Result
import Decision.Numeral.Integer

/-!
# Aggregation

A column of values folded into one.

Counting takes every value, and a count that no integer can hold would stop at
the greatest one. The other foldings pass over nulls, want numbers only, and
have nothing to say about a column that holds none.

A sum stays an integer for as long as it is one: every value an integer, and
every partial sum from left to right within 64 bits. As soon as that fails the
whole column is added up as doubles. The least and the greatest value are found
by the total order of doubles, with integers rounded for the comparison, but
what is returned is the value itself. Of equals the least is the first of them
and the greatest the last.

## Main definitions

* `Aggregator.fold?`: The value of a column of numbers.
* `Aggregator.apply`: The result of folding a column.
-/

namespace Decision

namespace Value

/-- The double that a number stands for in a folding. -/
def toDouble (value : Value) : Binary64 := value.asDouble?.getD (.nan false)

/-- The order in which the least and the greatest number are sought. -/
def numericOrder (a b : Value) : Ordering := a.toDouble.totalCompare b.toDouble

/-- The sum of integers added to what is there, if there is nothing else among
    the values and no partial sum goes out of range. -/
def longSum? (total : Int64) : List Value → Option Int64
  | [] => some total
  | int n :: values => (Numeral.long? (total.toInt + n.toInt)).bind fun next => longSum? next values
  | _ :: _ => none

/-- The sum of numbers. -/
def sum (values : List Value) : Value :=
  match longSum? 0 values with
  | some total => int total
  | none => float (Binary64.sum (values.filterMap asDouble?))

/-- The first of the least numbers, where `best` is the least so far. -/
def leastFrom (best : Value) : List Value → Value
  | [] => best
  | value :: values =>
      leastFrom (if numericOrder value best = .lt then value else best) values

/-- The last of the greatest numbers, where `best` is the greatest so far. -/
def greatestFrom (best : Value) : List Value → Value
  | [] => best
  | value :: values =>
      greatestFrom (if numericOrder value best = .lt then best else value) values

end Value

namespace Aggregator

/-- The value of a column of numbers without nulls, if there is one. -/
def fold? : Aggregator → List Value → Option Value
  | count, values => some (.int ((Numeral.long? values.length).getD Int64.maxValue))
  | _, [] => none
  | sum, values => some (Value.sum values)
  | min, value :: values => some (Value.leastFrom value values)
  | max, value :: values => some (Value.greatestFrom value values)

/-- The result that consists of a folded value, if there is one. -/
def folded (name : String) : Option Value → Result
  | some value => ⟨[⟨none, none, [(name, value)]⟩]⟩
  | none => .empty

/-- The result of folding a column. -/
def apply (aggregator : Aggregator) (name : String) (column : List Value) :
    Except EvalError Result :=
  match aggregator with
  | count => .ok (folded name (count.fold? column))
  | _ =>
      let values := column.filter fun value => !value.isNull
      match values.find? fun value => value.asDouble?.isNone with
      | some value => .error (.nonNumeric aggregator value)
      | none => .ok (folded name (aggregator.fold? values))

end Aggregator

end Decision
