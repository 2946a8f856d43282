import Decision.Evaluation.Consultation

/-!
# Matching

From the variables to the rules that match.

First every input clause is bound to its value. A missing variable counts as
null, and null is never converted, so neither needs a converter to be there at
all. Then the rules are gone through in the order of the table. A rule is left
at the first of its cells that does not hold: the cells after it are not put to
the evaluator, and an error that hides in one of them stays hidden.

## Main definitions

* `Clause.coerce`: The value of a clause, converted if the clause asks for it.
* `Context.ofInputs`: The context in which the cells are evaluated.
* `InputEntry.allHold`: Whether all cells of a rule hold.
* `Row.matching`: The rules that match.
-/

namespace Decision

/-- The value of a clause, converted if the clause declares a type and the value
    is not null. -/
def Clause.coerce {role : Role} (clause : Clause role) (raw : Value) : Consultation Value :=
  match clause.typeName with
  | none => pure raw
  | some typeName =>
      if raw.isNull then pure raw
      else do
        match ← Consultation.lookup typeName with
        | none => Consultation.fail (.unknownType role clause.name typeName)
        | some converter =>
            match ← Consultation.convert typeName converter raw with
            | .ok value => pure value
            | .error reason =>
                Consultation.fail (.coercion role clause.name typeName raw reason)

namespace Context

/-- The context with every clause bound to its value, one clause after the
    other. -/
def bindInputs (context : Context) : List (Clause .input) → Consultation Context
  | [] => pure context
  | clause :: clauses => do
      let raw := context.variables[clause.name]?.getD .null
      let value ← clause.coerce raw
      bindInputs (context.bind clause.name value) clauses

/-- The context in which the cells of a table are evaluated. -/
def ofInputs (inputs : List (Clause .input)) (supplied : Variables) : Consultation Context :=
  (ofVariables supplied).bindInputs inputs

end Context

/-- Whether all cells hold, each of the value of its clause. -/
def InputEntry.allHold (context : Context) :
    List (Clause .input) → List InputEntry → Consultation Bool
  | clause :: clauses, .test cell :: entries => do
      if ← Consultation.condition cell (context.input clause.name) context then
        allHold context clauses entries
      else pure false
  | _ :: clauses, .any :: entries => allHold context clauses entries
  | _, _ => pure true

/-- The rules that match, in the order in which they are given. -/
def Row.matching (inputs : List (Clause .input)) (context : Context) :
    List Row → Consultation (List Row)
  | [] => pure []
  | row :: rows => do
      let holds ← InputEntry.allHold context inputs row.rule.inputs
      let others ← matching inputs context rows
      return if holds then row :: others else others

end Decision
