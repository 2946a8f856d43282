import Decision.Binary64.Integer
import Decision.Conversion.Basic
import Decision.Text.Blank

/-!
# The Basic Types

The converters of the five basic types.

The two integer types share one conversion. It accepts what denotes a 64-bit
integer, and the narrower type then checks its own range, so a text that no
64-bit integer fits is reported as such under either type.

## Main definitions

* `Value.toLong`: The 64-bit integer that a value denotes.
* `BasicType.convert`: The converter of a basic type.
-/

namespace Decision

/-- Whether an integer fits 32 bits. -/
def fitsInteger (n : Int64) : Bool :=
  decide (Int32.minValue.toInt ≤ n.toInt ∧ n.toInt ≤ Int32.maxValue.toInt)

namespace Value

/-- The 64-bit integer that a value denotes. The type asked for only shows in
    the error. -/
def toLong (target : BasicType) (value : Value) : Except ConversionError Int64 :=
  match value with
  | int n => .ok n
  | float x => if x.hasLong then .ok x.toLong else .error (.unsupported value target)
  | string s => (Numeral.readInteger (Text.trim s.toList)).mapError (.notInteger s target)
  | _ => .error (.unsupported value target)

end Value

namespace BasicType

/-- Text and every value that has a single line of text. -/
def toStringValue : Converter
  | .string s => .ok (.string s)
  | .bool b => .ok (.string (Value.bool b).text)
  | .int n => .ok (.string (Value.int n).text)
  | .float x => .ok (.string (Value.float x).text)
  | value => .error (.unsupported value .string)

/-- The booleans and the two words for them. -/
def toBoolean : Converter
  | .bool b => .ok (.bool b)
  | .string "true" => .ok (.bool true)
  | .string "false" => .ok (.bool false)
  | value => .error (.unsupported value .boolean)

/-- Integers of 32 bits. -/
def toInteger : Converter := fun value => do
  let n ← value.toLong .integer
  if fitsInteger n then .ok (.int n) else .error (.outOfRange n)

/-- Integers of 64 bits. -/
def toLong : Converter := fun value => do
  let n ← value.toLong .long
  return .int n

/-- The nearest double. -/
def toDouble : Converter
  | .float x => .ok (.float x)
  | .int n => .ok (.float (.ofInt n.toInt))
  | .string s => do
      let x ← (Numeral.readDouble (Text.trim s.toList)).mapError (.notDouble s)
      return .float x
  | value => .error (.unsupported value .double)

/-- The converter of a basic type. -/
def convert : BasicType → Converter
  | string => toStringValue
  | boolean => toBoolean
  | integer => toInteger
  | long => toLong
  | double => toDouble

end BasicType

end Decision
