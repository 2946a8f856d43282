import Decision.Expression.Context

/-!
# Expressions

The cells of a table as they were written, and whoever understands them.

A table does not know what its cells mean. It keeps their text, with the name
of a language if one was given, and puts them to an evaluator: a function for
the input cells, which answers whether a value will do, and one for the output
cells, which produces a value.

## Main definitions

* `Expression`: The text of a cell, with its language.
* `ExpressionError`: Why a cell has no answer.
* `Evaluator`: Whoever understands the cells.
-/

namespace Decision

/-- The text of a cell, and the language it claims to be written in. -/
structure Expression where
  text : String
  language : Option String := none
deriving DecidableEq, Repr

/-- Why a cell has no answer. -/
inductive ExpressionError where
  /-- The text does not belong to the language. -/
  | malformed (text : String)
  /-- The text mentions a name that is bound to nothing. -/
  | unknownVariable (text name : String)
  /-- The language is not the evaluator's. -/
  | unsupportedLanguage (language : String)
  /-- The evaluator has a reason of its own. -/
  | evaluation (text message : String)
deriving DecidableEq, Repr

/-- The wording of the reason. -/
def ExpressionError.message : ExpressionError → String
  | .malformed text => s!"invalid expression '{text}': parse error"
  | .unknownVariable text name => s!"unknown variable '{name}' in expression '{text}'"
  | .unsupportedLanguage language => s!"unsupported expression language '{language}'"
  | .evaluation text message => s!"cannot evaluate '{text}': {message}"

/-- Whoever understands the cells of a table. -/
structure Evaluator where
  /-- Whether a value meets the condition of an input cell. -/
  condition : Expression → Value → Context → Except ExpressionError Bool
  /-- The value of an output cell. -/
  output : Expression → Context → Except ExpressionError Value

end Decision
