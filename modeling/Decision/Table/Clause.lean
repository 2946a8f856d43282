import Decision.Value.Identity
import Decision.Value.Text

/-!
# Clauses

The columns of a decision table.

Input and output clauses are alike in all but their role, which is part of the
type: a table cannot be put together with an output clause among its inputs,
and whatever treats both alike is written once. A clause may declare the name
of a type. The table does not know what the name stands for.

An output clause may list its values in the order of their priority. The list
does not restrict what the clause can produce.

## Main definitions

* `Role`: Input or output.
* `Clause`: A column.
* `Clause.rank`: The priority of a value.
-/

namespace Decision

/-- What a clause is there for. -/
inductive Role where
  /-- To be tested by the rules. -/
  | input
  /-- To be produced by the rules. -/
  | output
deriving DecidableEq, Repr

/-- The name of a role, as messages use it. -/
def Role.text : Role → String
  | .input => "input"
  | .output => "output"

/-- A column of a decision table. -/
structure Clause (role : Role) where
  name : String
  /-- The name of the type that its values are converted to. -/
  typeName : Option String := none
  /-- Its values, those of the highest priority first. -/
  values : List Value := []
deriving DecidableEq

namespace Clause

variable {role : Role}

/-- The place of a value in the list of values, the first if there are several;
    a value that is not listed comes after all that are. -/
def rank (clause : Clause role) (value : Value) : Nat :=
  clause.values.findIdx fun listed => listed == value

/-- A line about the clause. -/
def text (clause : Clause role) : String :=
  match clause.typeName with
  | none => s!"{role.text} {clause.name}"
  | some typeName => s!"{role.text} {clause.name}: {typeName}"

instance : BEq (Clause role) where
  beq a b := a.name == b.name && a.typeName == b.typeName && a.values == b.values

end Clause

end Decision
