import Decision.Binary64.Rounding
import Decision.Numeral.Decimal

/-!
# Doubles in Decimal

The double nearest to a decimal number, and the shortest decimal number that
denotes a double.

`ofDecimal` rounds the exact number once. Powers of ten far out of range are
settled by the number of places alone, so that a text with a huge power of ten
costs no more than its own length.

`shortest` is defined by what it is for: of all decimal numbers that read back
as the double, it has the fewest places. Powers of ten are tried from coarse to
fine. On each of them only two candidates can be nearest to the double, the
multiples just below and just above it, and the search ends at the first power
where one of the two reads back. If both do, the nearer is taken, and the upper
one if they are equally near. The alternative, an interval of decimals worked
out from the neighbours of the double, has to be told how rounding treats its
two ends; asking `ofDecimal` leaves that in one place.

The search cannot run dry: every finite double is a whole multiple of 2^-1074,
so at 10^-1074 the multiple just below is the double itself.

## Main definitions

* `Binary64.ofDecimal`: The double nearest to a decimal number.
* `Binary64.onGrid?`: The best multiple of a power of ten that reads back.
* `Binary64.shortest`: The shortest decimal number that reads back.

## Theorems

* `onGrid?_readsBack`: What is found on a grid reads back.
-/

namespace Decision

namespace Binary64

/-- The double nearest to a decimal number with a sign. -/
def ofDecimal (negative : Bool) (d : Decimal) : Binary64 :=
  if d.coefficient = 0 ∨ d.places < -330 then zero negative
  else if 310 < d.places then infinity negative
  else
    match d.exponent with
    | .ofNat e => ofRatio negative (d.coefficient * Nat.pow 10 e * unitsPerOne) 1
    | .negSucc e => ofRatio negative (d.coefficient * unitsPerOne) (Nat.pow 10 (e + 1))

/-- Whether a decimal number denotes the size of the double. -/
def readsBack (x : Binary64) (d : Decimal) : Bool :=
  (ofDecimal x.negative d).magnitude == x.magnitude

/-- How many times `10 ^ exponent` goes into a number of units. -/
def multiples (units : Nat) : Int → Nat
  | .ofNat e => units / (unitsPerOne * Nat.pow 10 e)
  | .negSucc e => units * Nat.pow 10 (e + 1) / unitsPerOne

/-- The multiple of `10 ^ exponent` that reads back as the double and is
    nearest to it. An exact half goes up. -/
def onGrid? (x : Binary64) (exponent : Int) : Option Decimal :=
  let below := multiples x.units exponent
  let low : Decimal := ⟨below, exponent⟩
  let high : Decimal := ⟨below + 1, exponent⟩
  let highIsNearer := decide (2 * below + 1 ≤ multiples (2 * x.units) exponent)
  match x.readsBack low, x.readsBack high with
  | true, true => some (if highIsNearer then high else low)
  | true, false => some low
  | false, true => some high
  | false, false => none

/-- The first hit on the grids from `exponent` downwards, at most `steps` of
    them; after those, the multiple below. -/
def firstOnGrid (x : Binary64) : Nat → Int → Decimal
  | 0, exponent => ⟨multiples x.units exponent, exponent⟩
  | steps + 1, exponent =>
      match x.onGrid? exponent with
      | some d => d
      | none => firstOnGrid x steps (exponent - 1)

/-- The shortest decimal number that reads back as the size of a finite double
    other than zero. -/
def shortest (x : Binary64) : Decimal :=
  let places := (Numeral.digits (x.units / unitsPerOne)).length
  firstOnGrid x (places + 1074) places

/-- What is found on a grid reads back. -/
theorem onGrid?_readsBack {x : Binary64} {exponent : Int} {d : Decimal}
    (h : x.onGrid? exponent = some d) : x.readsBack d = true := by
  simp only [onGrid?] at h
  split at h
  · next hlow hhigh =>
      split at h
      · exact Option.some.inj h ▸ hhigh
      · exact Option.some.inj h ▸ hlow
  · next hlow _ => exact Option.some.inj h ▸ hlow
  · next _ hhigh => exact Option.some.inj h ▸ hhigh
  · cases h

end Binary64

end Decision
