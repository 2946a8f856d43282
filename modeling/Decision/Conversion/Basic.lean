import Decision.Numeral.Double
import Decision.Value.Identity
import Decision.Value.Text

/-!
# Conversion of Values

How a value is brought into the kind that a clause declares.

A converter takes a value and gives back another, or says why it cannot. There
are five basic types with a converter each. None of them guesses. A text
becomes a boolean only if it is one of the two words, and a number only if it
is one from the first character to the last, blanks around it apart. A double
becomes an integer only if it is one exactly. Only the double type rounds, and
it has to: not every 64-bit integer is a double.

The error names the value and the type as they were asked for. The one
exception is an integer that outgrows the narrower of the two integer types,
where the number itself says more.

## Main definitions

* `BasicType`: The five basic types.
* `ConversionError`: Why a value cannot be converted.
* `Converter`: A conversion.
-/

namespace Decision

/-- The basic types that a clause can declare. -/
inductive BasicType where
  | string
  | boolean
  /-- Integers of 32 bits. -/
  | integer
  /-- Integers of 64 bits. -/
  | long
  | double
deriving DecidableEq, Repr

/-- The name under which a clause declares a basic type. -/
def BasicType.name : BasicType → String
  | .string => "string"
  | .boolean => "boolean"
  | .integer => "integer"
  | .long => "long"
  | .double => "double"

/-- Why a value cannot be converted. -/
inductive ConversionError where
  /-- No value of this kind, or not this value, belongs to the type. -/
  | unsupported (value : Value) (target : BasicType)
  /-- The text is not an integer. -/
  | notInteger (text : String) (target : BasicType) (reason : Numeral.IntegerError)
  /-- The text is not a double. -/
  | notDouble (text : String) (reason : Numeral.DoubleError)
  /-- The integer does not fit 32 bits. -/
  | outOfRange (n : Int64)
  /-- The converter has a reason of its own. -/
  | other (message : String)
deriving DecidableEq

/-- The wording of the reason. -/
def ConversionError.message : ConversionError → String
  | .unsupported value target =>
      s!"{value.kind} value {value.text} cannot be converted to {target.name}"
  | .notInteger text target reason => s!"'{text}' is not a valid {target.name}: {reason.message}"
  | .notDouble text reason => s!"'{text}' is not a valid double: {reason.message}"
  | .outOfRange n => s!"{(Value.int n).text} is out of range for integer"
  | .other message => message

/-- A conversion of values. -/
abbrev Converter := Value → Except ConversionError Value

end Decision
