import Decision.Expression.Simple

/-!
# Reading Each Cell Once

The simple evaluator with a memory for the cells it has read.

The memory is keyed by the text of a cell as it was written, blanks included.
Input cells and output cells are kept apart, because one text can be both a
condition and an operand and the two readings have nothing in common. The
language is not part of the key, so it is checked on every visit: a text that
was read for one cell says nothing about the language of the next. Only what
could be read is kept.

## Main definitions

* `Cache`: The cells read so far.
* `Cache.size`: How many there are.
* `Cache.readCondition`, `Cache.readOperand`: Reading through the memory.
* `Cache.condition`, `Cache.output`: The answers of the simple evaluator.
-/

namespace Decision

/-- The cells read so far, by their text. -/
structure Cache where
  conditions : Std.ExtTreeMap String Condition
  operands : Std.ExtTreeMap String Operand

namespace Cache

/-- A memory of nothing. -/
def empty : Cache := ⟨∅, ∅⟩

/-- How many input and output cells have been read. -/
def size (cache : Cache) : Nat := cache.conditions.size + cache.operands.size

/-- What a memory holds for the text of a cell, or else what a reader makes of
    it, and the memory afterwards. -/
def readThrough {α : Type} (parse? : String → Option α) (memory : Std.ExtTreeMap String α)
    (cell : Expression) : Except ExpressionError α × Std.ExtTreeMap String α :=
  match cell.checkLanguage with
  | .error reason => (.error reason, memory)
  | .ok () =>
      match memory[cell.text]? with
      | some found => (.ok found, memory)
      | none =>
          match cell.readWith parse? with
          | .error reason => (.error reason, memory)
          | .ok found => (.ok found, memory.insert cell.text found)

/-- The condition of an input cell. -/
def readCondition (cache : Cache) (cell : Expression) :
    Except ExpressionError Condition × Cache :=
  let (found, memory) := readThrough Condition.parse? cache.conditions cell
  (found, { cache with conditions := memory })

/-- The operand of an output cell. -/
def readOperand (cache : Cache) (cell : Expression) : Except ExpressionError Operand × Cache :=
  let (found, memory) := readThrough Operand.parse? cache.operands cell
  (found, { cache with operands := memory })

/-- Whether a value meets the condition of an input cell. -/
def condition (cache : Cache) (cell : Expression) (value : Value) (context : Context) :
    Except ExpressionError Bool × Cache :=
  let (found, after) := cache.readCondition cell
  (found >>= fun condition => cell.test condition value context, after)

/-- The value of an output cell. -/
def output (cache : Cache) (cell : Expression) (context : Context) :
    Except ExpressionError Value × Cache :=
  let (found, after) := cache.readOperand cell
  (found >>= fun operand => cell.produce operand context, after)

end Cache

end Decision
