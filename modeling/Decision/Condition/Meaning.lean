import Decision.Condition.Syntax

/-!
# Meaning of Conditions

When a value meets a condition.

Names are looked up through a function, so nothing here depends on how
variables are kept. A name that is bound to nothing has no meaning, and it is
the only thing that can go wrong: two values that cannot be compared simply do
not stand in the relation.

Tests are taken in order, and the first that holds decides. A name after it is
not looked up, so a condition can contain unbound names and still be met. Both
bounds of a range are looked up before either is compared.

## Main definitions

* `Unbound`: A name that is bound to nothing.
* `Operand.resolve`: The value of an operand.
* `Test.holds`: Whether a value passes a test.
* `Condition.holds`: Whether a value meets a condition.
-/

namespace Decision

/-- A name that is bound to nothing. -/
structure Unbound where
  name : String
deriving DecidableEq, Repr

/-- The value of an operand. -/
def Operand.resolve (lookup : String → Option Value) : Operand → Except Unbound Value
  | .literal value => .ok value
  | .named name =>
      match lookup name with
      | some value => .ok value
      | none => .error ⟨name⟩

/-- Whether a relation holds, where values that cannot be compared do not stand
    in any. -/
def Value.meets (value : Value) (relation : Relation) (bound : Value) : Bool :=
  (value.compare relation bound).getD false

/-- Whether a value passes a test. -/
def Test.holds (lookup : String → Option Value) (value : Value) : Test → Except Unbound Bool
  | .compare relation operand => do
      let bound ← operand.resolve lookup
      return value.meets relation bound
  | .between low high => do
      let lowest ← low.operand.resolve lookup
      let highest ← high.operand.resolve lookup
      return value.meets low.lowRelation lowest && value.meets high.highRelation highest

/-- Whether a value passes one of some tests, which are taken in order until one
    holds. -/
def Test.anyHolds (lookup : String → Option Value) (value : Value) :
    List Test → Except Unbound Bool
  | [] => .ok false
  | test :: tests => do
      if ← test.holds lookup value then return true
      anyHolds lookup value tests

/-- Whether a value meets a condition. -/
def Condition.holds (lookup : String → Option Value) (value : Value) :
    Condition → Except Unbound Bool
  | .any => .ok true
  | .anyOf tests => Test.anyHolds lookup value tests
  | .noneOf tests => (Test.anyHolds lookup value tests).map not

end Decision
