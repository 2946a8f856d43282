import Decision.Conversion.Registry
import Decision.Evaluation.Aggregation
import Decision.Evaluation.Matching
import Decision.Evaluation.Result
import Decision.Evaluation.Selection
import Decision.Expression.Cache

/-!
# Evaluation

From a table and variables to a result.

The stages follow one another: bind the input clauses, match the rules, select
those that count, convert their outputs, and fold them if the table says so.
Each stage is a consultation, and so is the whole, which leaves open who is
consulted. An engine answers every question from the question alone. The simple
evaluator with a memory answers the same questions and remembers the cells it
has read.

## Main definitions

* `Table.consult`: The evaluation of a table.
* `Engine`: Whoever is consulted.
* `Engine.report`, `Engine.evaluate`: The outcome.
* `Engine.calls`: The questions on the way to it.
* `Engine.Builder`: An engine put together from parts.
* `Cache.reply`: The replies of an engine that remembers cells.

## Theorems

* `Table.finish_of_plain`: Without an aggregator the results stay what they are.
-/

namespace Decision

/-- The entries of a rule that counts, its outputs converted in order. -/
def Clause.entries : List (Clause .output) → List Value → Consultation (List (String × Value))
  | clause :: clauses, raw :: raws => do
      let value ← clause.coerce raw
      let rest ← entries clauses raws
      return (clause.name, value) :: rest
  | _, _ => pure []

/-- The results of the rules that count. -/
def Candidate.results (clauses : List (Clause .output)) :
    List Candidate → Consultation (List RuleResult)
  | [] => pure []
  | candidate :: candidates => do
      let entries ← Clause.entries clauses candidate.outputs
      let others ← results clauses candidates
      return ⟨some candidate.row.index, candidate.row.rule.id, entries⟩ :: others

namespace Table

/-- What becomes of the results of the rules that count: one folded value, if
    the table folds a single column, and otherwise what they are. -/
def finish (table : Table) (results : List RuleResult) : Except EvalError Result :=
  match table.aggregator, table.outputs with
  | some aggregator, [clause] =>
      aggregator.apply clause.name ((⟨results⟩ : Result).column clause.name)
  | _, _ => .ok ⟨results⟩

/-- Without an aggregator the results stay what they are. -/
theorem finish_of_plain {table : Table} (plain : table.aggregator = none)
    (results : List RuleResult) : table.finish results = .ok ⟨results⟩ := by
  simp only [finish, plain]

/-- The evaluation of a table. -/
def consult (table : Table) (supplied : Variables) : Consultation Report := do
  let context ← Context.ofInputs table.inputs supplied
  let matched ← Row.matching table.inputs context table.rows
  let selected ← table.policy.select table.outputs context matched
  let results ← Candidate.results table.outputs selected
  let result ← Consultation.done (table.finish results)
  return {
    result := result
    matched := matched.map Row.index
    selected := selected.map fun candidate => candidate.row.index
  }

end Table

/-- Whoever is consulted when a table is evaluated. -/
structure Engine where
  /-- What the type names stand for. -/
  converter? : String → Option Converter
  /-- Whoever understands the cells. -/
  evaluator : Evaluator

namespace Engine

/-- The reply of an engine to a question. -/
def reply (engine : Engine) : (call : Call) → call.Reply
  | .lookup typeName => engine.converter? typeName
  | .convert _ converter value => converter value
  | .condition cell value context => engine.evaluator.condition cell value context
  | .output cell context => engine.evaluator.output cell context

/-- The outcome of evaluating a table, with the rules it came from. -/
def report (engine : Engine) (table : Table) (supplied : Variables) : Except EvalError Report :=
  (table.consult supplied).run engine.reply

/-- The outcome of evaluating a table. -/
def evaluate (engine : Engine) (table : Table) (supplied : Variables) : Except EvalError Result :=
  (engine.report table supplied).map Report.result

/-- The questions asked in evaluating a table. -/
def calls (engine : Engine) (table : Table) (supplied : Variables) : List Call :=
  (table.consult supplied).calls engine.reply

/-- The parts of an engine that were chosen. -/
structure Builder where
  registry : Option Registry
  evaluator : Option Evaluator

/-- The engine of the chosen parts, and of the standard ones where none was
    chosen. -/
def Builder.build (builder : Builder) : Engine where
  converter? := (builder.registry.getD .standard).converter?
  evaluator := builder.evaluator.getD .simple

/-- The engine of the standard parts. -/
def standard : Engine := Builder.build ⟨none, none⟩

/-- A line about the parts that were chosen. -/
def Builder.description (builder : Builder) : String :=
  let shown (chosen : Bool) : String := if chosen then "true" else "false"
  "DecisionEngineBuilder \x7b custom_transformers: " ++ shown builder.registry.isSome ++
    ", custom_expressions: " ++ shown builder.evaluator.isSome ++ " \x7d"

/-- A line about the engine, which says nothing about its parts. -/
def description (_engine : Engine) : String := "DecisionEngine \x7b .. \x7d"

end Engine

namespace Cache

/-- The reply to a question, where the cells are understood by the simple
    evaluator and remembered. -/
def reply (converter? : String → Option Converter) :
    (call : Call) → Cache → call.Reply × Cache
  | .lookup typeName, cache => (converter? typeName, cache)
  | .convert _ converter value, cache => (converter value, cache)
  | .condition cell value context, cache => cache.condition cell value context
  | .output cell context, cache => cache.output cell context

/-- The outcome of evaluating a table, and the cells read by then. -/
def report (converter? : String → Option Converter) (table : Table) (supplied : Variables)
    (cache : Cache) : Except EvalError Report × Cache :=
  (table.consult supplied).runWith (reply converter?) cache

end Cache

end Decision
