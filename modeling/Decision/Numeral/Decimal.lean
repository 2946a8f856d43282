import Decision.Numeral.Integer

/-!
# Decimal Numbers

A number as a count of some power of ten, and its two forms as text.

The same number can be counted in several powers of ten, and nothing here
chooses between them. Writing puts all places out: the count is followed by as
many zeros as its power asks for, or it is filled up in front until the point
can stand behind a digit. Reading is wider than writing. It takes a point
without digits on one side of it, and a power of ten after the letter e, and it
only moves the point: no digit is dropped and nothing is rounded.

## Main definitions

* `Decimal`: A count of a power of ten.
* `Decimal.text`: All places of the number, without a power of ten.
* `Numeral.readDecimal?`: The number that a text without a sign denotes.
-/

namespace Decision

/-- The number `coefficient · 10 ^ exponent`. -/
structure Decimal where
  coefficient : Nat
  exponent : Int
deriving DecidableEq, Repr

namespace Decimal

/-- The number of places in front of the point, where a number below a tenth
    has a negative one for each zero behind the point: the number is less than
    ten to that power, and unless it is zero, not less than a tenth of that. -/
def places (d : Decimal) : Int := (Numeral.digits d.coefficient).length + d.exponent

/-- All places of the number, with a point only if places stand behind it. -/
def text (d : Decimal) : List Char :=
  let shown := Numeral.digits d.coefficient
  match d.exponent with
  | .ofNat zeros => shown ++ List.replicate zeros '0'
  | .negSucc n =>
      let padded := List.replicate (n + 2 - shown.length) '0' ++ shown
      let whole := padded.length - (n + 1)
      padded.take whole ++ '.' :: padded.drop whole

end Decimal

namespace Numeral

/-- The digits at the start of a text. -/
def leadingDigits (cs : List Char) : List Char := cs.takeWhile Char.isDigit

/-- What follows the digits at the start of a text. -/
def afterDigits (cs : List Char) : List Char := cs.dropWhile Char.isDigit

/-- The value of a text of digits, if it is one and is not empty. -/
def readNatural? (cs : List Char) : Option Nat :=
  if cs.isEmpty || !cs.all Char.isDigit then none else some (Nat.ofDigitChars 10 cs 0)

/-- The power of ten that ends a number: nothing, or the letter e, an optional
    sign and digits. -/
def readPower? : List Char → Option Int
  | [] => some 0
  | c :: cs =>
      if c == 'e' || c == 'E' then
        match cs with
        | '-' :: ds => (readNatural? ds).map fun n => -(n : Int)
        | '+' :: ds => (readNatural? ds).map fun n => (n : Int)
        | ds => (readNatural? ds).map fun n => (n : Int)
      else none

/-- The number that a text without a sign denotes: digits with a point before,
    between, behind or nowhere, and an optional power of ten. -/
def readDecimal? (cs : List Char) : Option Decimal :=
  let whole := leadingDigits cs
  let (fraction, rest) :=
    match afterDigits cs with
    | '.' :: ds => (leadingDigits ds, afterDigits ds)
    | ds => ([], ds)
  if whole.isEmpty && fraction.isEmpty then none
  else (readPower? rest).map fun power =>
    ⟨Nat.ofDigitChars 10 (whole ++ fraction) 0, power - fraction.length⟩

end Numeral

end Decision
