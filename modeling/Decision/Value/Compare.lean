import Decision.Value.Basic

/-!
# Comparison of Values

The relations that a condition can ask for between its input and a bound.

Not every pair of values has an answer. Order exists between two texts, which
are compared character by character, and between two numbers. Two integers are
compared as integers and every other pair of numbers as doubles, so the integer
of a mixed pair is rounded first. Equality exists between two values of one
kind and between two numbers, and null is unlike everything but itself. Where
there is no answer the result is `none`, and what that means is left to whoever
asked: a condition takes it for a no.

## Main definitions

* `Relation`: The five relations.
* `Value.order?`: The order of two values, if they have one.
* `Value.sameAs?`: Whether two values count as equal, if they can be compared.
* `Value.compare`: Whether a relation holds between two values.
-/

namespace Decision

/-- A relation that a condition can ask for. -/
inductive Relation where
  | equal
  | above
  | atLeast
  | below
  | atMost
deriving DecidableEq, Repr

/-- The sign of a relation. -/
def Relation.symbol : Relation → String
  | .equal => "="
  | .above => ">"
  | .atLeast => ">="
  | .below => "<"
  | .atMost => "<="

/-- Whether a relation holds of two things that stand in this order. -/
def Relation.holdsFor : Relation → Ordering → Bool
  | .equal, order => order == .eq
  | .above, order => order == .gt
  | .atLeast, order => order != .lt
  | .below, order => order == .lt
  | .atMost, order => order != .gt

namespace Value

/-- The order of two values: texts by their characters, two integers exactly,
    and any other two numbers as doubles. -/
def order? : Value → Value → Option Ordering
  | int m, int n => some (Ord.compare m.toInt n.toInt)
  | int m, float y => (Binary64.ofInt m.toInt).compare? y
  | float x, int n => x.compare? (Binary64.ofInt n.toInt)
  | float x, float y => x.compare? y
  | string s, string t => some (Ord.compare s t)
  | _, _ => none

/-- Whether two values count as equal, where an integer may equal a double. -/
def sameAs? : Value → Value → Option Bool
  | null, null => some true
  | null, _ => some false
  | _, null => some false
  | bool a, bool b => some (a == b)
  | list as, list bs => some (list as == list bs)
  | map keys item, map keys' item' => some (map keys item == map keys' item')
  | a, b => (a.order? b).map fun order => order == .eq

/-- Whether a relation holds between two values, if they can be compared by it. -/
def compare (a : Value) (relation : Relation) (b : Value) : Option Bool :=
  match relation with
  | .equal => a.sameAs? b
  | _ => (a.order? b).map relation.holdsFor

end Value

end Decision
