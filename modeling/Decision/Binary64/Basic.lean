/-!
# Double-Precision Numbers

The floating point numbers that a decision table can hold, as plain data.

A double is 64 bits: a sign and 63 more. Read as one number, those 63 bits
count the doubles from zero outwards: the next larger double in size has the
next larger count. Everything that this library asks about doubles follows
from that count. Order is the order of the counts, with the sign in front.
Infinity is the count just above the last finite double, and a NaN is any count
above infinity. So a double is kept as its sign and its count, and neither an
exponent nor a fraction has to be unpacked to compare two of them.

Arithmetic needs the exact size as well. Every finite double is a whole
multiple of the smallest positive one, 2^-1074, and `units` says which
multiple. That makes all exact arithmetic here arithmetic of natural numbers.

A sign is kept on a NaN too. It never shows in the text of the number, but the
total order puts a negative NaN below every number and a positive one above.

## Main definitions

* `Binary64`: A double, as its sign and its distance from zero.
* `Binary64.ofBits`, `Binary64.toBits`: The 64 bits of the interchange format.
* `Binary64.units`: The exact size, in multiples of 2^-1074.
* `Binary64.compare?`: The order of numbers, which a NaN has no place in.
* `Binary64.totalCompare`: The order of all doubles, NaNs and both zeros apart.
* `Binary64.isWhole`: Whether a double is an integer.

## Theorems

* `Binary64.toBits_ofBits`: The bits are read and written without loss.
* `Binary64.compare?_eq_none_iff`: Exactly a NaN stands outside the order.
* `Binary64.beq_comm`: Equality does not depend on the order of its sides.
-/

namespace Decision

/-- A double-precision number: its sign, and how many doubles of that sign
    stand between it and zero. -/
structure Binary64 where
  /-- Whether the sign bit is set. -/
  negative : Bool
  /-- The 63 bits below the sign, read as one number. -/
  magnitude : Nat
  magnitude_lt : magnitude < 1 <<< 63
deriving DecidableEq, Repr

namespace Binary64

/-- The magnitude of infinity, one above that of the largest finite double. -/
def infinityMagnitude : Nat := 2047 <<< 52

/-- How many units of 2^-1074 make up the number one. -/
def unitsPerOne : Nat := 1 <<< 1074

/-- The double with these bits. -/
def ofBits (bits : UInt64) : Binary64 where
  negative := decide (1 <<< 63 ≤ bits.toNat)
  magnitude := bits.toNat % (1 <<< 63)
  magnitude_lt := Nat.mod_lt _ (by decide)

/-- The bits of a double, sign first. -/
def toBits (x : Binary64) : UInt64 :=
  UInt64.ofNat (x.magnitude + if x.negative then 1 <<< 63 else 0)

/-- The zero of a sign. -/
def zero (negative : Bool) : Binary64 := ⟨negative, 0, by decide⟩

/-- The infinity of a sign. -/
def infinity (negative : Bool) : Binary64 := ⟨negative, infinityMagnitude, by decide⟩

/-- The NaN that stands for every NaN where the sign does not matter: its
    first fraction bit is set and all others are clear. -/
def nan (negative : Bool) : Binary64 := ⟨negative, infinityMagnitude + 1 <<< 51, by decide⟩

/-- Whether a double is a NaN, that is, beyond infinity. -/
def isNaN (x : Binary64) : Bool := decide (infinityMagnitude < x.magnitude)

/-- Whether a double is one of the two infinities. -/
def isInfinite (x : Binary64) : Bool := x.magnitude == infinityMagnitude

/-- Whether a double is a number with an exact size. -/
def isFinite (x : Binary64) : Bool := decide (x.magnitude < infinityMagnitude)

/-! ## Exact size -/

/-- The size of the double with a given magnitude, in units of 2^-1074. The
    upper bits choose the distance between neighbours, which doubles from one
    block of 2^52 doubles to the next; only the first two blocks share it. -/
def unitsOf (magnitude : Nat) : Nat :=
  match magnitude / (1 <<< 52) with
  | 0 => magnitude
  | block + 1 => (1 <<< 52 + magnitude % (1 <<< 52)) <<< block

/-- The exact size of a finite double, in units of 2^-1074. -/
def units (x : Binary64) : Nat := unitsOf x.magnitude

/-- The exact value of a finite double, in units of 2^-1074. -/
def signedUnits (x : Binary64) : Int := if x.negative then -(x.units : Int) else x.units

/-- Whether a double is an integer: it is finite, and nothing of it is left behind
    the point. -/
def isWhole (x : Binary64) : Bool := x.isFinite && x.units % unitsPerOne == 0

/-- What stands before the point of a double. Both zeros have the integer 0
    there. -/
def beforePoint (x : Binary64) : Int :=
  let size : Nat := x.units / unitsPerOne
  if x.negative then -(size : Int) else size

/-! ## Order -/

/-- The place of a number in the order of numbers. The two zeros share one. -/
def position (x : Binary64) : Int := if x.negative then -(x.magnitude : Int) else x.magnitude

/-- The order of two numbers, or `none` if one of them is a NaN. -/
def compare? (x y : Binary64) : Option Ordering :=
  if x.isNaN || y.isNaN then none else some (compare x.position y.position)

/-- Numbers are equal when they stand at one place in the order. So the two
    zeros are equal, and a NaN equals nothing, itself included. -/
instance : BEq Binary64 where
  beq x y := x.compare? y == some .eq

/-- Whether a number is less than another. -/
def isLess (x y : Binary64) : Bool := x.compare? y == some .lt

/-- Whether a number is at most another. -/
def isAtMost (x y : Binary64) : Bool := x.isLess y || x == y

/-- The place of a double among all doubles: the negative ones are moved down
    by one, which parts the two zeros. -/
def totalPosition (x : Binary64) : Int :=
  if x.negative then -(x.magnitude : Int) - 1 else x.magnitude

/-- The order of all doubles. A negative NaN stands below every number and a
    positive one above, and the negative zero below the positive. -/
def totalCompare (x y : Binary64) : Ordering := compare x.totalPosition y.totalPosition

/-! ## Small facts -/

theorem toBits_ofBits (bits : UInt64) : (ofBits bits).toBits = bits := by
  apply UInt64.toNat_inj.mp
  have h : bits.toNat < 2 ^ 64 := bits.toNat_lt
  simp only [toBits, ofBits, decide_eq_true_eq, Nat.reduceShiftLeft]
  split <;> rw [UInt64.toNat_ofNat'] <;> omega

theorem compare?_eq_none_iff (x y : Binary64) :
    x.compare? y = none ↔ x.isNaN = true ∨ y.isNaN = true := by
  rw [← Bool.or_eq_true, compare?]
  split
  · next h => exact iff_of_true rfl h
  · next h => exact iff_of_false nofun h

/-- Comparing the other way around turns the answer around. -/
theorem compare?_swap (x y : Binary64) : x.compare? y = (y.compare? x).map Ordering.swap := by
  have swap : ∀ a b : Int, compare a b = (compare b a).swap :=
    fun _ _ => Std.OrientedOrd.eq_swap
  -- Whether there is an order does not depend on the side a NaN stands on.
  simp only [compare?, Bool.or_comm y.isNaN]
  split
  · rfl
  · rw [swap]
    rfl

theorem beq_comm (x y : Binary64) : (x == y) = (y == x) := by
  show (x.compare? y == some .eq) = (y.compare? x == some .eq)
  rw [compare?_swap]
  -- Of the three orders only equality is its own reverse.
  cases y.compare? x with
  | none => rfl
  | some order => cases order <;> rfl

end Binary64

end Decision
