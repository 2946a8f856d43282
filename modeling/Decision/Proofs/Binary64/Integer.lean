import Decision.Binary64.Integer
import Decision.Proofs.Binary64.Exact
import Decision.Proofs.Value.Equality

/-!
# Doubles That Are Integers

When a double is cut to an integer without loss.

Cutting loses what stands behind the point and whatever is out of range, and the
test in front of it has to keep both away. It compares with the rounded ends of
the range. That is right for reasons that differ. The lower end is not moved by
rounding, and it belongs to the range. The upper end is moved to 2^63, and that
number is the first one out of range, so to be less than it is to be in range.
Had rounding gone down, or had the test allowed the end itself, the cut would
have stopped a double at the end of the range and nobody would have noticed.

## Theorems

* `value_eq_intCast_iff`: When a double is an integer.
* `isWhole_iff`: The test for it.
* `hasLong_iff`: A double passes the whole test if it is an integer in range.
* `toInt_toLong`: Then it is cut to the integer that it is.
-/

namespace Decision

namespace Binary64

/-! ## Comparisons -/

theorem isNaN_of_isFinite {x : Binary64} (h : x.isFinite = true) : x.isNaN = false :=
  decide_eq_false (Nat.not_lt.mpr (Nat.le_of_lt (isFinite_iff.mp h)))

theorem compare?_of_isFinite {x y : Binary64} (hx : x.isFinite = true) (hy : y.isFinite = true) :
    x.compare? y = some (compare x.position y.position) := by
  rw [compare?, isNaN_of_isFinite hx, isNaN_of_isFinite hy]
  rfl

/-- Finite doubles are compared as their exact sizes. -/
theorem isLess_iff {x y : Binary64} (hx : x.isFinite = true) (hy : y.isFinite = true) :
    x.isLess y = true ↔ x.signedUnits < y.signedUnits := by
  rw [isLess, beq_iff_eq, compare?_of_isFinite hx hy, Option.some.injEq, compare_lt_iff_lt,
    signedUnits_lt_iff hx hy]

theorem isAtMost_iff {x y : Binary64} (hx : x.isFinite = true) (hy : y.isFinite = true) :
    x.isAtMost y = true ↔ x.signedUnits ≤ y.signedUnits := by
  have hbeq : (x == y) = true ↔ x.position = y.position := by
    rw [beq_iff, isNaN_of_isFinite hx, isNaN_of_isFinite hy]
    exact and_iff_right ⟨rfl, rfl⟩
  have hgt := signedUnits_lt_iff hy hx
  have hlt := signedUnits_lt_iff hx hy
  rw [isAtMost, Bool.or_eq_true, isLess_iff hx hy, hbeq]
  omega

/-! ## Integers -/

/-- A finite double is an integer if its exact size is a multiple of one. -/
theorem value_eq_intCast_iff {x : Binary64} {k : Int} :
    x.value = (k : ℚ) ↔ x.signedUnits = k * unitsPerOne := by
  unfold value
  rw [div_eq_iff unitsPerOne_cast_pos.ne', ← Int.cast_natCast, ← Int.cast_mul, Int.cast_inj]

/-- What stands before the point of an integer is the integer. -/
theorem beforePoint_eq {x : Binary64} {k : Int} (h : x.signedUnits = k * unitsPerOne) :
    x.beforePoint = k := by
  have hpos : (unitsPerOne : Int) ≠ 0 := Int.natCast_ne_zero.mpr unitsPerOne_pos.ne'
  unfold signedUnits at h
  simp only [beforePoint, Int.natCast_ediv]
  cases hsign : x.negative with
  | true =>
      rw [hsign, if_pos rfl] at h
      have hunits : (x.units : Int) = -k * unitsPerOne := by
        rw [Int.neg_mul]
        omega
      rw [if_pos rfl, hunits, Int.mul_ediv_cancel _ hpos, Int.neg_neg]
  | false =>
      rw [hsign, if_neg Bool.false_ne_true] at h
      rw [if_neg Bool.false_ne_true, h, Int.mul_ediv_cancel _ hpos]

/-- The test for an integer finds those among the finite doubles. -/
theorem isWhole_iff {x : Binary64} :
    x.isWhole = true ↔ x.isFinite = true ∧ ∃ k : Int, x.value = (k : ℚ) := by
  rw [isWhole, Bool.and_eq_true, beq_iff_eq]
  refine and_congr_right fun _ => ?_
  rw [← natAbs_signedUnits]
  constructor
  · intro h
    rcases Int.natCast_dvd.mpr (Nat.dvd_of_mod_eq_zero h) with ⟨k, hk⟩
    exact ⟨k, value_eq_intCast_iff.mpr (hk.trans (Int.mul_comm _ _))⟩
  · rintro ⟨k, hk⟩
    rw [value_eq_intCast_iff.mp hk, Int.natAbs_mul, Int.natAbs_natCast]
    exact Nat.mul_mod_left _ _

/-! ## The ends of the range -/

theorem isFinite_longFloor : longFloor.isFinite = true := by decide +kernel

theorem isFinite_longCeiling : longCeiling.isFinite = true := by decide +kernel

/-- The least integer is a double. -/
theorem signedUnits_longFloor : longFloor.signedUnits = -2 ^ 63 * unitsPerOne := by
  decide +kernel

/-- The greatest integer is rounded to one more. -/
theorem signedUnits_longCeiling : longCeiling.signedUnits = 2 ^ 63 * unitsPerOne := by
  decide +kernel

/-- A double passes the test exactly if it is finite and an integer in range. -/
theorem hasLong_iff {x : Binary64} :
    x.hasLong = true ↔
      x.isFinite = true ∧ ∃ k : Int, x.value = (k : ℚ) ∧ -2 ^ 63 ≤ k ∧ k < 2 ^ 63 := by
  have hpos : (0 : Int) < unitsPerOne := Int.natCast_pos.mpr unitsPerOne_pos
  have hrange : ∀ {k : Int}, x.isFinite = true → x.value = (k : ℚ) →
      (longFloor.isAtMost x = true ↔ -2 ^ 63 ≤ k) ∧ (x.isLess longCeiling = true ↔ k < 2 ^ 63) := by
    intro k hfinite hk
    rw [isAtMost_iff isFinite_longFloor hfinite, isLess_iff hfinite isFinite_longCeiling,
      value_eq_intCast_iff.mp hk, signedUnits_longFloor, signedUnits_longCeiling]
    exact ⟨Int.mul_le_mul_right hpos, Int.mul_lt_mul_right hpos⟩
  rw [hasLong, Bool.and_eq_true, Bool.and_eq_true, isWhole_iff]
  constructor
  · rintro ⟨⟨⟨hfinite, k, hk⟩, hfloor⟩, hceiling⟩
    rcases hrange hfinite hk with ⟨hlow, hhigh⟩
    exact ⟨hfinite, k, hk, hlow.mp hfloor, hhigh.mp hceiling⟩
  · rintro ⟨hfinite, k, hk, hlow, hhigh⟩
    rcases hrange hfinite hk with ⟨hfloor, hceiling⟩
    exact ⟨⟨⟨hfinite, k, hk⟩, hfloor.mpr hlow⟩, hceiling.mpr hhigh⟩

/-- A double that is an integer in range is cut to that integer. -/
theorem toInt_toLong {x : Binary64} {k : Int} (hfinite : x.isFinite = true)
    (hk : x.value = (k : ℚ)) (hlow : -2 ^ 63 ≤ k) (hhigh : k < 2 ^ 63) : x.toLong.toInt = k := by
  have hmin : Int64.minValue.toInt = -2 ^ 63 := rfl
  have hmax : Int64.maxValue.toInt = 2 ^ 63 - 1 := rfl
  have hbefore : x.beforePoint = k := beforePoint_eq (value_eq_intCast_iff.mp hk)
  -- None of the cuts that lose something is made.
  rw [toLong, isNaN_of_isFinite hfinite, hbefore, if_neg Bool.false_ne_true, if_neg (by omega),
    if_neg (by omega)]
  exact Int64.toInt_ofInt_of_le hlow hhigh

end Binary64

end Decision
