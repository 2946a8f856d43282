import Decision.Binary64.Shortest

/-!
# Doubles as Text

How a double is written, and which texts denote one.

Writing shows the shortest decimal number that denotes the double, with all its
places and never with a power of ten; a whole number has no point. Reading
accepts more than writing produces: a leading plus, a power of ten, a point
without digits on one side, and the names of the infinities and of NaN in any
mixture of upper and lower case.

A text too long for the range is not an error. It denotes the nearest double,
which is an infinity or a zero.

## Main definitions

* `Numeral.doubleText`: The text of a double.
* `Numeral.DoubleError`: Why a text denotes no double.
* `Numeral.readDouble`: The double that a text denotes.
-/

namespace Decision

namespace Numeral

/-- The text of a double. A NaN shows no sign. -/
def doubleText (x : Binary64) : List Char :=
  if x.isNaN then ['N', 'a', 'N']
  else
    let size :=
      if x.isInfinite then ['i', 'n', 'f']
      else if x.magnitude == 0 then ['0']
      else x.shortest.text
    if x.negative then '-' :: size else size

/-- Why a text denotes no double. -/
inductive DoubleError where
  /-- The text is empty. -/
  | empty
  /-- The text has a character where the form does not allow it. -/
  | invalid
deriving DecidableEq, Repr

/-- The wording of the reason. -/
def DoubleError.message : DoubleError → String
  | .empty => "cannot parse float from empty string"
  | .invalid => "invalid float literal"

/-- The infinities and NaN by name, in any mixture of upper and lower case. -/
def namedDouble? (negative : Bool) (cs : List Char) : Option Binary64 :=
  match String.ofList (cs.map Char.toLower) with
  | "inf" => some (.infinity negative)
  | "infinity" => some (.infinity negative)
  | "nan" => some (.nan negative)
  | _ => none

/-- The double that a text without a sign denotes. -/
def readUnsigned (negative : Bool) (cs : List Char) : Except DoubleError Binary64 :=
  match readDecimal? cs with
  | some d => .ok (.ofDecimal negative d)
  | none =>
      match namedDouble? negative cs with
      | some x => .ok x
      | none => .error .invalid

/-- The double that a text denotes: an optional sign, then a decimal number or a
    name. -/
def readDouble : List Char → Except DoubleError Binary64
  | [] => .error .empty
  | '-' :: cs => readUnsigned true cs
  | '+' :: cs => readUnsigned false cs
  | cs => readUnsigned false cs

end Numeral

end Decision
