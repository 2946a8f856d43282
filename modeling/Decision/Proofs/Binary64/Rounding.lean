import Decision.Binary64.Rounding
import Mathlib.Algebra.Order.Ring.Int
import Mathlib.Data.Nat.Log

/-!
# Integers as Doubles

What happens to an integer that is compared as a double.

Rounding never turns two integers around, but it can make them one. That is the
whole difference between the order of integers and the order of the doubles they
stand for. A larger integer does not stand for a smaller double, and two integers
that stand for one double are both too large to be held exactly.

The magnitude of a rounded ratio is put together from the block that the ratio
falls into and a count within it. Within a block the count grows with the ratio.
From one block to the next it falls back, by less than what the block adds: the
count is at most 2^53 and, in all blocks but the first, at least 2^52.

Below 2^53 the count is the integer itself, scaled up until it fills 53 bits, so
nothing is rounded there. The bound is the best one: 2^53 and 2^53 + 1 stand for
one double.

## Main definitions

* `ofUnits`: The double nearest to a whole number of units.

## Theorems

* `nearestMagnitude_mono`: A larger ratio is not rounded to a smaller double.
* `totalPosition_ofInt_mono`: A larger integer does not stand for a smaller
  double.
* `unitsOf_of_count`, `nearestMagnitude_of_count`: From a block and a count to the
  size, and back.
* `units_ofInt`: Integers within 2^53 are held exactly.
* `ofInt_injOn`: Different integers within 2^53 stand for different doubles.
-/

namespace Decision

/-! ## Rounded quotients -/

theorem roundHalfEven_mul (n : Nat) {d : Nat} (hd : 0 < d) : roundHalfEven (n * d) d = n := by
  unfold roundHalfEven
  rw [Nat.mul_mod_left, Nat.mul_div_cancel n hd]
  exact if_pos (by omega)

theorem le_roundHalfEven {n d k : Nat} (hd : 0 < d) (h : k * d ≤ n) : k ≤ roundHalfEven n d := by
  have hmono := roundHalfEven_mono hd h
  rw [roundHalfEven_mul k hd] at hmono
  exact hmono

theorem roundHalfEven_le {n d k : Nat} (hd : 0 < d) (h : n ≤ k * d) : roundHalfEven n d ≤ k := by
  have hmono := roundHalfEven_mono hd h
  rw [roundHalfEven_mul k hd] at hmono
  exact hmono

namespace Binary64

/-! ## Order -/

theorem shiftLeft_pos {d : Nat} (hd : 0 < d) (block : Nat) : 0 < d <<< block := by
  rw [Nat.shiftLeft_eq]
  exact Nat.mul_pos hd (Nat.two_pow_pos block)

/-- The count within a block is at most 2^53. -/
theorem count_le (n : Nat) {d : Nat} (hd : 0 < d) :
    roundHalfEven n (d <<< ((n / d).log2 - 52)) ≤ 2 ^ 53 := by
  have hquotient : n / d < 2 ^ ((n / d).log2 + 1) := Nat.lt_log2_self
  have hpow : 2 ^ ((n / d).log2 + 1) ≤ 2 ^ (53 + ((n / d).log2 - 52)) :=
    Nat.pow_le_pow_right (by omega) (by omega)
  have hn : n < 2 ^ (53 + ((n / d).log2 - 52)) * d := by
    rw [← Nat.div_lt_iff_lt_mul hd]
    omega
  refine roundHalfEven_le (shiftLeft_pos hd _) ?_
  rw [Nat.shiftLeft_eq, Nat.mul_comm d, ← Nat.mul_assoc, ← Nat.pow_add]
  omega

/-- In all blocks but the first the count is at least 2^52. -/
theorem le_count (n : Nat) {d : Nat} (hd : 0 < d) (h : 0 < (n / d).log2 - 52) :
    2 ^ 52 ≤ roundHalfEven n (d <<< ((n / d).log2 - 52)) := by
  have hne : n / d ≠ 0 := by
    intro hzero
    rw [hzero, Nat.log2_zero] at h
    omega
  have hquotient : 2 ^ (52 + ((n / d).log2 - 52)) ≤ n / d := by
    have hself := Nat.log2_self_le hne
    rw [show 52 + ((n / d).log2 - 52) = (n / d).log2 by omega]
    exact hself
  have hn : 2 ^ (52 + ((n / d).log2 - 52)) * d ≤ n := (Nat.le_div_iff_mul_le hd).mp hquotient
  refine le_roundHalfEven (shiftLeft_pos hd _) ?_
  rw [Nat.shiftLeft_eq, Nat.mul_comm d, ← Nat.mul_assoc, ← Nat.pow_add]
  exact hn

/-- A larger ratio is not rounded to a smaller double. -/
theorem nearestMagnitude_mono {m n d : Nat} (hd : 0 < d) (h : m ≤ n) :
    nearestMagnitude m d ≤ nearestMagnitude n d := by
  have hlog : (m / d).log2 ≤ (n / d).log2 := by
    rw [Nat.log2_eq_log_two, Nat.log2_eq_log_two]
    exact Nat.log_mono_right (Nat.div_le_div_right h)
  suffices hsum : ((m / d).log2 - 52) <<< 52 + roundHalfEven m (d <<< ((m / d).log2 - 52)) ≤
      ((n / d).log2 - 52) <<< 52 + roundHalfEven n (d <<< ((n / d).log2 - 52)) by
    unfold nearestMagnitude
    exact Nat.le_min.mpr ⟨Nat.le_trans (Nat.min_le_left _ _) hsum, Nat.min_le_right _ _⟩
  by_cases hblock : (m / d).log2 - 52 = (n / d).log2 - 52
  · -- In one block the counts are in order.
    rw [hblock]
    exact Nat.add_le_add_left (roundHalfEven_mono (shiftLeft_pos hd _) h) _
  · -- The count falls back by at most 2^52, and the block adds that much.
    have hcount := count_le m hd
    have hnext := le_count n hd (by omega)
    rw [Nat.shiftLeft_eq _ 52, Nat.shiftLeft_eq _ 52]
    omega

theorem totalPosition_inj {x y : Binary64} : x.totalPosition = y.totalPosition ↔ x = y := by
  constructor
  · intro h
    rcases x with ⟨negative, magnitude, _⟩
    rcases y with ⟨negative', magnitude', _⟩
    simp only [totalPosition] at h
    -- The sign of the position is the sign of the double.
    have hsign : negative = negative' := by
      cases negative <;> cases negative' <;>
        simp only [Bool.false_eq_true, if_true, if_false] at h <;> first | rfl | omega
    subst hsign
    have hmagnitude : magnitude = magnitude' := by
      cases negative <;> simp only [Bool.false_eq_true, if_true, if_false] at h <;> omega
    subst hmagnitude
    rfl
  · rintro rfl
    rfl

/-- What is not behind another double in the order of all doubles is not behind it in
    the order of numbers. -/
theorem position_le_of_totalPosition_le {x y : Binary64}
    (h : x.totalPosition ≤ y.totalPosition) : x.position ≤ y.position := by
  unfold totalPosition at h
  unfold position
  cases hx : x.negative <;> cases hy : y.negative <;>
    simp only [hx, hy, Bool.false_eq_true, if_true, if_false] at h ⊢ <;>
    omega

/-- The double nearest to a whole number of units. -/
def ofUnits (units : Int) : Binary64 := ofRatio (decide (units < 0)) units.natAbs 1

theorem isNaN_ofInt (n : Int) : (ofInt n).isNaN = false :=
  decide_eq_false (Nat.not_lt.mpr (Nat.min_le_right _ _))

theorem unitsPerOne_pos : 0 < unitsPerOne := shiftLeft_pos Nat.one_pos 1074

theorem ofInt_eq_ofUnits (n : Int) : ofInt n = ofUnits (n * unitsPerOne) := by
  have hpos : (0 : Int) < unitsPerOne := Int.natCast_pos.mpr unitsPerOne_pos
  have hsign : n * unitsPerOne < 0 * unitsPerOne ↔ n < 0 := mul_lt_mul_iff_left₀ hpos
  rw [Int.zero_mul] at hsign
  unfold ofInt ofUnits
  rw [Int.natAbs_mul, Int.natAbs_natCast, decide_eq_decide.mpr hsign]

/-- More units are not rounded to a smaller double. -/
theorem totalPosition_ofUnits_mono {m n : Int} (h : m ≤ n) :
    (ofUnits m).totalPosition ≤ (ofUnits n).totalPosition := by
  have hsize : ∀ {a b : Int}, a.natAbs ≤ b.natAbs →
      (ofUnits a).magnitude ≤ (ofUnits b).magnitude := nearestMagnitude_mono Nat.one_pos
  have hsign : ∀ a : Int, (ofUnits a).negative = decide (a < 0) := fun _ => rfl
  simp only [totalPosition, hsign, decide_eq_true_eq]
  by_cases hm : m < 0
  · by_cases hn : n < 0
    · -- Below zero the smaller number is the larger in size.
      have := hsize (a := n) (b := m) (by omega)
      rw [if_pos hm, if_pos hn]
      omega
    · rw [if_pos hm, if_neg hn]
      omega
  · have := hsize (a := m) (b := n) (by omega)
    rw [if_neg hm, if_neg (by omega)]
    omega

theorem position_ofUnits_mono {m n : Int} (h : m ≤ n) :
    (ofUnits m).position ≤ (ofUnits n).position :=
  position_le_of_totalPosition_le (totalPosition_ofUnits_mono h)

/-- A larger integer does not stand for a smaller double. -/
theorem totalPosition_ofInt_mono {m n : Int} (h : m ≤ n) :
    (ofInt m).totalPosition ≤ (ofInt n).totalPosition := by
  rw [ofInt_eq_ofUnits, ofInt_eq_ofUnits]
  exact totalPosition_ofUnits_mono (Int.mul_le_mul_of_nonneg_right h (Int.natCast_nonneg _))

theorem position_ofInt_mono {m n : Int} (h : m ≤ n) :
    (ofInt m).position ≤ (ofInt n).position :=
  position_le_of_totalPosition_le (totalPosition_ofInt_mono h)

/-! ## Blocks and counts -/

/-- The size of a double whose block is known. -/
theorem unitsOf_of_block {m b c : Nat} (hblock : m / (1 <<< 52) = b + 1)
    (hcount : 1 <<< 52 + m % (1 <<< 52) = c) : unitsOf m = c <<< b := by
  unfold unitsOf
  rw [hblock, hcount]

/-- In the first block the size is the count. -/
theorem unitsOf_of_lt {magnitude : Nat} (h : magnitude < 2 ^ 52) :
    unitsOf magnitude = magnitude := by
  have hblock : magnitude / (1 <<< 52) = 0 := Nat.div_eq_of_lt h
  unfold unitsOf
  rw [hblock]

/-- The size of a double whose block and count are known. In all blocks but the first
    the leading bit of the count is not stored, but added to the block. A count of 2^53
    belongs to the next block. -/
theorem unitsOf_of_count {b c : Nat} (hlow : b = 0 ∨ 2 ^ 52 ≤ c) (hhigh : c ≤ 2 ^ 53) :
    unitsOf (b * 2 ^ 52 + c) = c * 2 ^ b := by
  by_cases hsmall : c < 2 ^ 52
  · have hb : b = 0 := by omega
    rw [hb, Nat.zero_mul, Nat.zero_add, Nat.pow_zero, Nat.mul_one, unitsOf_of_lt hsmall]
  · by_cases htop : c = 2 ^ 53
    · rw [unitsOf_of_block (b := b + 1) (c := 2 ^ 52) (by rw [Nat.one_shiftLeft]; omega)
        (by rw [Nat.one_shiftLeft]; omega), Nat.shiftLeft_eq, htop, Nat.pow_succ 2 b]
      omega
    · rw [unitsOf_of_block (b := b) (c := c) (by rw [Nat.one_shiftLeft]; omega)
        (by rw [Nat.one_shiftLeft]; omega), Nat.shiftLeft_eq]

/-- A count that is shifted into a block is rounded to the double of that block and
    that count. -/
theorem nearestMagnitude_of_count {b c : Nat} (hlow : b = 0 ∨ 2 ^ 52 ≤ c) (hhigh : c < 2 ^ 53)
    (hb : b ≤ 2045) : nearestMagnitude (c * 2 ^ b) 1 = b * 2 ^ 52 + c := by
  have hlog : (c * 2 ^ b).log2 - 52 = b := by
    by_cases hsmall : c < 2 ^ 52
    · have hzero : b = 0 := by omega
      by_cases hc : c = 0
      · rw [hc, hzero, Nat.zero_mul, Nat.log2_zero]
      · have hlt : (c * 2 ^ b).log2 < 52 := by
          rw [hzero, Nat.pow_zero, Nat.mul_one, Nat.log2_lt hc]
          exact hsmall
        omega
    · have hpos : 0 < 2 ^ b := Nat.two_pow_pos b
      have hne : c * 2 ^ b ≠ 0 := Nat.mul_ne_zero (by omega) (by omega)
      have hself : (c * 2 ^ b).log2 = 52 + b := by
        rw [Nat.log2_eq_iff hne, Nat.pow_add, Nat.pow_add, Nat.pow_add]
        constructor
        · exact Nat.mul_le_mul_right _ (by omega)
        · have := Nat.mul_lt_mul_of_pos_right hhigh hpos
          omega
      omega
  unfold nearestMagnitude infinityMagnitude
  simp only [Nat.div_one, hlog, Nat.shiftLeft_eq, Nat.one_mul,
    roundHalfEven_mul c (Nat.two_pow_pos b)]
  omega

/-! ## Exact integers -/

/-- An integer of at most 53 bits, in units, fills 53 bits and is shifted. -/
theorem exists_shift {n e : Nat} (hpos : 0 < n) (h : n ≤ 2 ^ 53) (hlow : 52 ≤ e)
    (hhigh : e ≤ 2044) :
    ∃ k b, 2 ^ 52 ≤ k ∧ k < 2 ^ 53 ∧ b ≤ 2045 ∧ k * 2 ^ b = n * 1 <<< e := by
  rw [Nat.one_shiftLeft]
  have hlo : 2 ^ n.log2 ≤ n := Nat.log2_self_le (by omega)
  have hhi : n < 2 ^ (n.log2 + 1) := Nat.lt_log2_self
  by_cases htop : n = 2 ^ 53
  · refine ⟨2 ^ 52, e + 1, by omega, by omega, by omega, ?_⟩
    rw [htop, Nat.pow_succ 2 e]
    omega
  · have hlog : n.log2 ≤ 52 := by
      have := (Nat.log2_lt (by omega)).mpr (show n < 2 ^ 53 by omega)
      omega
    refine ⟨n * 2 ^ (52 - n.log2), e - 52 + n.log2, ?_, ?_, by omega, ?_⟩
    · calc 2 ^ 52 = 2 ^ n.log2 * 2 ^ (52 - n.log2) := by
            rw [← Nat.pow_add, Nat.add_sub_cancel' hlog]
        _ ≤ n * 2 ^ (52 - n.log2) := Nat.mul_le_mul_right _ hlo
    · calc n * 2 ^ (52 - n.log2) < 2 ^ (n.log2 + 1) * 2 ^ (52 - n.log2) :=
            Nat.mul_lt_mul_of_pos_right hhi (Nat.two_pow_pos _)
        _ = 2 ^ 53 := by
            rw [← Nat.pow_add]
            congr 1
            omega
    · rw [Nat.mul_assoc, ← Nat.pow_add]
      congr 2
      omega

/-- Integers within 2^53 are held exactly. -/
theorem units_ofInt {n : Int} (h : n.natAbs ≤ 2 ^ 53) :
    (ofInt n).units = n.natAbs * unitsPerOne := by
  show unitsOf (nearestMagnitude (n.natAbs * unitsPerOne) 1) = n.natAbs * unitsPerOne
  by_cases hzero : n.natAbs = 0
  · rw [hzero, Nat.zero_mul]
    rfl
  · rcases exists_shift (e := 1074) (by omega) h (by omega) (by omega) with
      ⟨k, b, hlo, hhi, hb, hshift⟩
    have hunits : k * 2 ^ b = n.natAbs * unitsPerOne := hshift
    rw [← hunits, nearestMagnitude_of_count (.inr hlo) hhi hb,
      unitsOf_of_count (.inr hlo) (Nat.le_of_lt hhi)]

/-- Different integers within 2^53 stand for different doubles. -/
theorem ofInt_injOn {m n : Int} (hm : m.natAbs ≤ 2 ^ 53) (hn : n.natAbs ≤ 2 ^ 53)
    (h : ofInt m = ofInt n) : m = n := by
  have hunits : m.natAbs * unitsPerOne = n.natAbs * unitsPerOne := by
    rw [← units_ofInt hm, ← units_ofInt hn, h]
  have hsize : m.natAbs = n.natAbs := Nat.eq_of_mul_eq_mul_right unitsPerOne_pos hunits
  have hsign : decide (m < 0) = decide (n < 0) := congrArg negative h
  rw [decide_eq_decide] at hsign
  omega

end Binary64

end Decision
