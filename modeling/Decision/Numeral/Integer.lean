/-!
# Integers in Decimal

How a 64-bit integer is written in decimal, and how it is read.

Reading goes from left to right and stops at the first character that settles
the matter. That order shows when a text is wrong in two ways: a stray letter
behind twenty digits is never reached, because the number has outgrown 64 bits
by then, and one in front of them is reported before the number can outgrow
anything. So `readDigits` carries the value read so far and checks each
character for being a digit first and the grown value second.

A sign with nothing after it is reported as a wrong digit and not as an empty
text.

## Main definitions

* `Numeral.long?`: The 64-bit integer equal to a number.
* `Numeral.integerText`: The decimal digits of an integer.
* `Numeral.IntegerError`: Why a text is not the decimal form of an integer.
* `Numeral.readInteger`: The integer that a text denotes.

## Theorems

* `long?_eq_some_iff`: A number has a 64-bit integer exactly if one equals it.
* `ofDigitChars_digits`: The digits of a number have the number as their value.
-/

namespace Decision

namespace Numeral

/-- The 64-bit integer equal to a number, if there is one. -/
def long? (n : Int) : Option Int64 :=
  if Int64.minValue.toInt ≤ n ∧ n ≤ Int64.maxValue.toInt then some (Int64.ofInt n) else none

/-- The decimal digits of a natural number. -/
def digits (n : Nat) : List Char := Nat.toDigits 10 n

/-- The decimal form of an integer: its digits, after a minus sign if it is
    negative. -/
def integerText (n : Int64) : List Char :=
  if n.toInt < 0 then '-' :: digits n.toInt.natAbs else digits n.toInt.natAbs

/-- Why a text is not the decimal form of a 64-bit integer. -/
inductive IntegerError where
  /-- The text is empty. -/
  | empty
  /-- A character is not a digit, or there is none after the sign. -/
  | invalidDigit
  /-- The number lies above the range. -/
  | tooLarge
  /-- The number lies below the range. -/
  | tooSmall
deriving DecidableEq, Repr

/-- The wording of the reason. -/
def IntegerError.message : IntegerError → String
  | .empty => "cannot parse integer from empty string"
  | .invalidDigit => "invalid digit found in string"
  | .tooLarge => "number too large to fit in target type"
  | .tooSmall => "number too small to fit in target type"

/-- Extends the value `acc` by the digits that follow, and gives `beyond` once
    the value exceeds `limit`. -/
def readDigits (limit : Nat) (beyond : IntegerError) (acc : Nat) :
    List Char → Except IntegerError Nat
  | [] => .ok acc
  | c :: cs =>
      if c.isDigit then
        let next := 10 * acc + (c.toNat - '0'.toNat)
        if limit < next then .error beyond else readDigits limit beyond next cs
      else .error .invalidDigit

/-- The integer that a sign and the digits after it denote. Below zero there is
    room for one more than above. -/
def readSigned (negative : Bool) (cs : List Char) : Except IntegerError Int64 :=
  if cs.isEmpty then .error .invalidDigit
  else do
    let size ← readDigits (if negative then 1 <<< 63 else 1 <<< 63 - 1)
      (if negative then .tooSmall else .tooLarge) 0 cs
    return Int64.ofInt (if negative then -(size : Int) else size)

/-- The integer that a text denotes: an optional sign, then decimal digits. -/
def readInteger : List Char → Except IntegerError Int64
  | [] => .error .empty
  | '-' :: cs => readSigned true cs
  | '+' :: cs => readSigned false cs
  | cs => readSigned false cs

/-! ## Small facts -/

/-- A number has a 64-bit integer exactly if one equals it. -/
theorem long?_eq_some_iff {n : Int} {m : Int64} : long? n = some m ↔ m.toInt = n := by
  have hmin : Int64.minValue.toInt = -2 ^ 63 := rfl
  have hmax : Int64.maxValue.toInt = 2 ^ 63 - 1 := rfl
  have hlo : -2 ^ 63 ≤ m.toInt := m.le_toInt
  have hhi : m.toInt < 2 ^ 63 := m.toInt_lt
  simp only [long?]
  constructor
  · intro h
    split at h
    · next hr =>
        rw [← Option.some.inj h]
        exact Int64.toInt_ofInt_of_le (by omega) (by omega)
    · cases h
  · intro h
    rw [if_pos (by omega), ← h, Int64.ofInt_toInt]

theorem isDigit_of_mem_digits {n : Nat} {c : Char} (h : c ∈ digits n) : c.isDigit = true :=
  Nat.isDigit_of_mem_toDigits (by decide) (by decide) h

theorem ofDigitChars_digits (n : Nat) : Nat.ofDigitChars 10 (digits n) 0 = n :=
  Nat.ofDigitChars_ten_toDigits

theorem digits_ne_nil (n : Nat) : digits n ≠ [] := Nat.toDigits_ne_nil

end Numeral

end Decision
