import Decision.Binary64.Basic

/-!
# Rounding to Doubles

Every operation that yields a double is exact first and rounded once.

The exact result is a ratio of natural numbers, counted in the units of
2^-1074 that `Binary64.units` counts in, with its sign kept apart. Rounding
then needs no case for small numbers, large numbers or carries. In units the
doubles below 2^53 are the integers, and from there on each further block of
the magnitude counts them twice as coarsely. So the ratio is scaled down by the
power of two that brings it below 2^53 and rounded to an integer, a half going
to the even neighbour. A carry out of the block lands on the first double of
the next one, which is where it belongs, and whatever passes the largest finite
double stops at infinity.

## Main definitions

* `roundHalfEven`: A quotient rounded to the nearest integer.
* `Binary64.ofRatio`: The double nearest to a ratio of units.
* `Binary64.ofInt`: The double nearest to an integer.
* `Binary64.add`, `Binary64.sum`: Addition, and the sum of a list.

## Theorems

* `roundHalfEven_mono`: A larger quotient is not rounded below a smaller one.
-/

namespace Decision

/-- The integer nearest to `n / d`; of two equally near ones, the even one. -/
def roundHalfEven (n d : Nat) : Nat :=
  let quotient := n / d
  let remainder := n % d
  if 2 * remainder < d then quotient
  else if d < 2 * remainder then quotient + 1
  else quotient + quotient % 2

theorem roundHalfEven_mono {m n d : Nat} (hd : 0 < d) (h : m ≤ n) :
    roundHalfEven m d ≤ roundHalfEven n d := by
  have hq : m / d ≤ n / d := Nat.div_le_div_right h
  have hm : d * (m / d) + m % d = m := Nat.div_add_mod m d
  have hn : d * (n / d) + n % d = n := Nat.div_add_mod n d
  have hr : m % d < d := Nat.mod_lt _ hd
  simp only [roundHalfEven]
  -- Rounding moves a quotient by one at most, so only equal quotients are close.
  rcases Nat.lt_or_ge (m / d) (n / d) with hlt | hge
  · split <;> split <;> (try split) <;> (try split) <;> omega
  · -- Then the remainders are in order, and so are the choices made by them.
    have heq : m / d = n / d := Nat.le_antisymm hq hge
    rw [heq] at hm ⊢
    split <;> split <;> (try split) <;> (try split) <;> omega

namespace Binary64

/-- The magnitude of the double nearest to `n / d` units. -/
def nearestMagnitude (n d : Nat) : Nat :=
  let block := (n / d).log2 - 52
  min (block <<< 52 + roundHalfEven n (d <<< block)) infinityMagnitude

theorem nearestMagnitude_lt (n d : Nat) : nearestMagnitude n d < 1 <<< 63 :=
  Nat.lt_of_le_of_lt (Nat.min_le_right _ _) (by decide)

/-- The double nearest to `n / d` units, with the given sign. -/
def ofRatio (negative : Bool) (n d : Nat) : Binary64 :=
  ⟨negative, nearestMagnitude n d, nearestMagnitude_lt n d⟩

/-- The double nearest to an integer. -/
def ofInt (n : Int) : Binary64 := ofRatio (decide (n < 0)) (n.natAbs * unitsPerOne) 1

/-- The double nearest to the exact sum. A sum of zero is positive, unless two
    negative zeros were added; infinities of opposite sign have no sum. -/
def add (x y : Binary64) : Binary64 :=
  if x.isNaN then x
  else if y.isNaN then y
  else if x.isInfinite then
    if y.isInfinite && x.negative != y.negative then nan false else x
  else if y.isInfinite then y
  else
    let exact := x.signedUnits + y.signedUnits
    if exact = 0 then zero (x.negative && y.negative)
    else ofRatio (decide (exact < 0)) exact.natAbs 1

/-- The sum of a list, from left to right. It starts from the negative zero,
    the one double that leaves every other unchanged when added to it. -/
def sum (xs : List Binary64) : Binary64 := xs.foldl add (zero true)

end Binary64

end Decision
