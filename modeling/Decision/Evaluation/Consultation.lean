import Decision.Conversion.Basic
import Decision.Expression.Basic
import Decision.Table.Basic

/-!
# Consultations

An evaluation as the questions it asks.

Evaluating a table needs others: someone who knows what a type name stands for,
the converters, and whoever understands the cells. Which of them is asked what,
and in which order, is part of what an evaluation does, and it is the part that
a function returning only a result would lose. So an evaluation is written as a
tree. A node is a question, with a branch for each possible reply, and a leaf
is an outcome. The questions asked are the nodes on one path from the root.

The same tree can then be walked in several ways: with replies that depend on
the question alone, by `run` for the outcome and by `calls` for the questions,
and by `runWith` with replies that depend on a state which the questions change.
Whatever is said about all trees holds for every evaluation at once.

An error is a leaf, so nothing is asked after it.

## Main definitions

* `EvalError`: Why an evaluation has no result.
* `Call`: A question, with `Call.Reply` the type of its replies.
* `Consultation`: An evaluation that yields a value.
* `Consultation.run`: The outcome, given how each question is answered.
* `Consultation.calls`: The questions that are asked on the way.
* `Consultation.runWith`: The outcome, where replies depend on a state.

## Theorems

* `run_bind`: One evaluation after another has the outcomes one after another.
* `calls_bind`: The second one asks only if the first has a result.
-/

namespace Decision

/-- Why an evaluation has no result. -/
inductive EvalError where
  /-- Nobody knows the type that a clause declares. -/
  | unknownType (role : Role) (clause typeName : String)
  /-- A value could not be converted to the type that a clause declares. -/
  | coercion (role : Role) (clause typeName : String) (value : Value) (reason : ConversionError)
  /-- A cell has no answer. -/
  | expression (reason : ExpressionError)
  /-- Several rules match where one has to. -/
  | multipleMatches (rules : List String)
  /-- No rule matches where one has to. -/
  | noMatch
  /-- Two matching rules have different outputs where all have to agree. -/
  | conflictingOutputs (first second : String)
  /-- A value that is not a number stands among those to be folded. -/
  | nonNumeric (aggregator : Aggregator) (value : Value)
deriving DecidableEq

/-- The wording of the reason. -/
def EvalError.message : EvalError → String
  | .unknownType role clause typeName =>
      s!"no transformer registered for type '{typeName}' of {role.text} clause '{clause}'"
  | .coercion role clause typeName value reason =>
      s!"cannot coerce {value.text} of {role.text} clause '{clause}' to type '{typeName}': " ++
        reason.message
  | .expression reason => reason.message
  | .multipleMatches rules =>
      s!"hit policy UNIQUE allows a single match but rules {commaSeparated rules} matched"
  | .noMatch => "hit policy UNIQUE requires exactly one match but no rule matched"
  | .conflictingOutputs first second =>
      s!"hit policy ANY requires equal outputs but rules {first} and {second} differ"
  | .nonNumeric aggregator value =>
      s!"aggregator {aggregator.text} cannot fold non-numeric value {value.text}"

/-- A question that an evaluation asks. -/
inductive Call where
  /-- What does a type name stand for? -/
  | lookup (typeName : String)
  /-- What is a value, once converted by the converter of a type? -/
  | convert (typeName : String) (converter : Converter) (value : Value)
  /-- Does a value meet the condition of an input cell? -/
  | condition (cell : Expression) (value : Value) (context : Context)
  /-- What does an output cell produce? -/
  | output (cell : Expression) (context : Context)

/-- The replies that a question can have. -/
def Call.Reply : Call → Type
  | .lookup _ => Option Converter
  | .convert .. => Except ConversionError Value
  | .condition .. => Except ExpressionError Bool
  | .output .. => Except ExpressionError Value

/-- An evaluation that yields a value of some type, as the questions it asks. -/
inductive Consultation (α : Type) where
  | done (outcome : Except EvalError α)
  | ask (call : Call) (next : call.Reply → Consultation α)

namespace Consultation

variable {α β : Type}

/-- An evaluation that goes on with the value of another. -/
def bind : Consultation α → (α → Consultation β) → Consultation β
  | done (.ok a), following => following a
  | done (.error e), _ => done (.error e)
  | ask call next, following => ask call fun reply => (next reply).bind following

instance : Monad Consultation where
  pure a := done (.ok a)
  bind := bind

/-- An evaluation that ends without a result. -/
def fail (error : EvalError) : Consultation α := done (.error error)

/-- What an expression error means to an evaluation. -/
def ofExpression (answer : Except ExpressionError α) : Consultation α :=
  done (answer.mapError .expression)

/-! ## The questions one by one -/

/-- Asks what a type name stands for. -/
def lookup (typeName : String) : Consultation (Option Converter) :=
  ask (.lookup typeName) fun reply => done (.ok reply)

/-- Asks for a value to be converted. -/
def convert (typeName : String) (converter : Converter) (value : Value) :
    Consultation (Except ConversionError Value) :=
  ask (.convert typeName converter value) fun reply => done (.ok reply)

/-- Asks whether a value meets the condition of an input cell. -/
def condition (cell : Expression) (value : Value) (context : Context) : Consultation Bool :=
  ask (.condition cell value context) fun reply => ofExpression reply

/-- Asks what an output cell produces. -/
def output (cell : Expression) (context : Context) : Consultation Value :=
  ask (.output cell context) fun reply => ofExpression reply

/-! ## Ways to walk the tree -/

/-- The outcome of an evaluation. -/
def run (reply : (call : Call) → call.Reply) : Consultation α → Except EvalError α
  | done outcome => outcome
  | ask call next => (next (reply call)).run reply

/-- The questions that an evaluation asks. -/
def calls (reply : (call : Call) → call.Reply) : Consultation α → List Call
  | done _ => []
  | ask call next => call :: (next (reply call)).calls reply

/-- The outcome of an evaluation and the state it leaves behind, where a reply
    depends on a state and may change it. -/
def runWith {σ : Type} (reply : (call : Call) → σ → call.Reply × σ) :
    Consultation α → σ → Except EvalError α × σ
  | done outcome, state => (outcome, state)
  | ask call next, state =>
      let (answer, after) := reply call state
      (next answer).runWith reply after

/-! ## One evaluation after another -/

/-- One evaluation after another has the outcomes one after another. -/
theorem run_bind (reply : (call : Call) → call.Reply) (c : Consultation α)
    (following : α → Consultation β) :
    (c >>= following).run reply = c.run reply >>= fun a => (following a).run reply := by
  show (c.bind following).run reply = _
  induction c with
  | done outcome => cases outcome <;> rfl
  | ask call next ih => exact ih (reply call)

/-- The second evaluation asks only if the first has a result. -/
theorem calls_bind (reply : (call : Call) → call.Reply) (c : Consultation α)
    (following : α → Consultation β) :
    (c >>= following).calls reply =
      c.calls reply ++
        match c.run reply with
        | .ok a => (following a).calls reply
        | .error _ => [] := by
  show (c.bind following).calls reply = _
  induction c with
  | done outcome => cases outcome <;> rfl
  | ask call next ih =>
      show call :: ((next (reply call)).bind following).calls reply = _
      rw [ih (reply call)]
      rfl

theorem run_pure (reply : (call : Call) → call.Reply) (a : α) :
    (pure a : Consultation α).run reply = .ok a := rfl

theorem calls_pure (reply : (call : Call) → call.Reply) (a : α) :
    (pure a : Consultation α).calls reply = [] := rfl

end Consultation

end Decision
