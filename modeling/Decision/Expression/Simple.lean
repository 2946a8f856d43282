import Decision.Condition.Meaning
import Decision.Condition.Reading
import Decision.Expression.Basic

/-!
# The Simple Language

The evaluator for cells that hold conditions and operands.

A cell without a language is taken to be written in this one. The name of the
language is compared without regard to upper and lower case, and a cell in any
other language is refused before its text is looked at, so a text that could
not be read is never reported for a cell that was not meant for this evaluator.

Reading a cell and finding out what it means are two steps. The first needs
nothing but the cell, which is what makes it possible to read each text once.

## Main definitions

* `Expression.isSimple`: Whether a cell is written in the simple language.
* `Expression.readCondition`: The condition of an input cell.
* `Expression.readOperand`: The operand of an output cell.
* `Evaluator.simple`: The evaluator.
-/

namespace Decision

namespace Expression

/-- Whether a cell is written in the simple language. -/
def isSimple (cell : Expression) : Bool :=
  match cell.language with
  | none => true
  | some language => language.toList.map Char.toLower == "simple".toList

/-- Refuses a cell in another language. -/
def checkLanguage (cell : Expression) : Except ExpressionError Unit :=
  match cell.language with
  | none => .ok ()
  | some language => if cell.isSimple then .ok () else .error (.unsupportedLanguage language)

/-- What a reader makes of the text of a cell. -/
def readWith {α : Type} (parse? : String → Option α) (cell : Expression) :
    Except ExpressionError α :=
  match parse? cell.text with
  | some found => .ok found
  | none => .error (.malformed cell.text)

/-- The condition of an input cell. -/
def readCondition (cell : Expression) : Except ExpressionError Condition := do
  cell.checkLanguage
  cell.readWith Condition.parse?

/-- The operand of an output cell. -/
def readOperand (cell : Expression) : Except ExpressionError Operand := do
  cell.checkLanguage
  cell.readWith Operand.parse?

/-- Reports a name that is bound to nothing, with the text that mentions it. -/
def named {α : Type} (cell : Expression) (answer : Except Unbound α) :
    Except ExpressionError α :=
  answer.mapError fun unbound => .unknownVariable cell.text unbound.name

/-- Whether a value meets the condition that was read from a cell. -/
def test (cell : Expression) (condition : Condition) (value : Value) (context : Context) :
    Except ExpressionError Bool :=
  cell.named (condition.holds context.get? value)

/-- The value of the operand that was read from a cell. -/
def produce (cell : Expression) (operand : Operand) (context : Context) :
    Except ExpressionError Value :=
  cell.named (operand.resolve context.get?)

end Expression

/-- The evaluator for cells in the simple language. -/
def Evaluator.simple : Evaluator where
  condition cell value context := do
    let condition ← cell.readCondition
    cell.test condition value context
  output cell context := do
    let operand ← cell.readOperand
    cell.produce operand context

end Decision
