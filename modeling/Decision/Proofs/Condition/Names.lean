import Decision.Expression.Simple

/-!
# The Names in a Cell

A cell looks up the names that stand in it, and no others.

The meaning of a condition is given by a look-up, which is a function on all
names. Which of them matter can be read off the condition itself, since an
operand is a literal or one name and nothing in a condition computes a name from
a value. Two look-ups that agree on these names give every value the same
answer, and if there is no answer they miss the same name.

Not every name of a condition has to be looked up: a test that holds hides the
tests after it. So the names are an upper bound for what is looked up, and one
that depends on no value.

A cell that is in another language or cannot be read has no names. It has no
answer either, whatever the names mean.

## Main definitions

* `Operand.names`, `Test.names`, `Condition.names`: The names in the parts of a
  condition.
* `Expression.conditionNames`, `Expression.operandNames`: The names in an input
  cell and in an output cell.

## Theorems

* `Condition.holds_congr`: Look-ups that agree on the names of a condition agree
  on whether it holds.
* `Evaluator.condition_congr`, `Evaluator.output_congr`: The same for contexts
  and cells.
-/

namespace Decision

/-- The name that an operand looks up, if it is not a literal. -/
def Operand.names : Operand → List String
  | .literal _ => []
  | .named name => [name]

/-- The names in a test. -/
def Test.names : Test → List String
  | .compare _ operand => operand.names
  | .between low high => low.operand.names ++ high.operand.names

/-- The names in a condition. -/
def Condition.names : Condition → List String
  | .any => []
  | .anyOf tests => tests.flatMap Test.names
  | .noneOf tests => tests.flatMap Test.names

/-- The names in an input cell. -/
def Expression.conditionNames (cell : Expression) : List String :=
  match cell.readCondition with
  | .ok condition => condition.names
  | .error _ => []

/-- The names in an output cell. -/
def Expression.operandNames (cell : Expression) : List String :=
  match cell.readOperand with
  | .ok operand => operand.names
  | .error _ => []

section Lookup

variable {lookup lookup' : String → Option Value}

theorem Operand.resolve_congr {operand : Operand}
    (h : ∀ name ∈ operand.names, lookup name = lookup' name) :
    operand.resolve lookup = operand.resolve lookup' := by
  cases operand with
  | literal value => rfl
  | named name =>
      have hname : lookup name = lookup' name := h name List.mem_cons_self
      simp only [resolve, hname]

theorem Test.holds_congr {test : Test} (h : ∀ name ∈ test.names, lookup name = lookup' name)
    (value : Value) : test.holds lookup value = test.holds lookup' value := by
  cases test with
  | compare relation operand =>
      have hbound : operand.resolve lookup = operand.resolve lookup' := Operand.resolve_congr h
      simp only [holds, hbound]
  | between low high =>
      have hlow : low.operand.resolve lookup = low.operand.resolve lookup' :=
        Operand.resolve_congr fun name hname => h name (List.mem_append_left _ hname)
      have hhigh : high.operand.resolve lookup = high.operand.resolve lookup' :=
        Operand.resolve_congr fun name hname => h name (List.mem_append_right _ hname)
      simp only [holds, hlow, hhigh]

theorem Test.anyHolds_congr {tests : List Test}
    (h : ∀ name ∈ tests.flatMap Test.names, lookup name = lookup' name) (value : Value) :
    Test.anyHolds lookup value tests = Test.anyHolds lookup' value tests := by
  induction tests with
  | nil => rfl
  | cons test tests ih =>
      rw [List.flatMap_cons] at h
      have htest : test.holds lookup value = test.holds lookup' value :=
        Test.holds_congr (fun name hname => h name (List.mem_append_left _ hname)) value
      have hrest : Test.anyHolds lookup value tests = Test.anyHolds lookup' value tests :=
        ih fun name hname => h name (List.mem_append_right _ hname)
      simp only [anyHolds, htest, hrest]

/-- Look-ups that agree on the names of a condition agree on whether it holds,
    and on the name that is missing if there is no answer. -/
theorem Condition.holds_congr {condition : Condition}
    (h : ∀ name ∈ condition.names, lookup name = lookup' name) (value : Value) :
    condition.holds lookup value = condition.holds lookup' value := by
  cases condition with
  | any => rfl
  | anyOf tests => exact Test.anyHolds_congr h value
  | noneOf tests =>
      have htests := Test.anyHolds_congr h value
      simp only [holds, htests]

end Lookup

namespace Evaluator

variable {cell : Expression} {a b : Context}

/-- Contexts that agree on the names of an input cell give it the same answer. -/
theorem condition_congr (h : ∀ name ∈ cell.conditionNames, a.get? name = b.get? name)
    (value : Value) : simple.condition cell value a = simple.condition cell value b := by
  simp only [simple]
  cases hread : cell.readCondition with
  | error reason => rfl
  | ok condition =>
      simp only [Expression.conditionNames, hread] at h
      have hholds : condition.holds a.get? value = condition.holds b.get? value :=
        Condition.holds_congr h value
      show cell.test condition value a = cell.test condition value b
      rw [Expression.test, Expression.test, hholds]

/-- Contexts that agree on the names of an output cell give it the same value. -/
theorem output_congr (h : ∀ name ∈ cell.operandNames, a.get? name = b.get? name) :
    simple.output cell a = simple.output cell b := by
  simp only [simple]
  cases hread : cell.readOperand with
  | error reason => rfl
  | ok operand =>
      simp only [Expression.operandNames, hread] at h
      have hvalue : operand.resolve a.get? = operand.resolve b.get? := Operand.resolve_congr h
      show cell.produce operand a = cell.produce operand b
      rw [Expression.produce, Expression.produce, hvalue]

end Evaluator

end Decision
