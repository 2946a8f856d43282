import Decision.Proofs.Binary64.Rounding
import Mathlib.Algebra.Order.Field.Basic
import Mathlib.Algebra.Order.Field.Rat
import Mathlib.Algebra.Order.Group.Int
import Mathlib.Data.Rat.Cast.Order
import Mathlib.Order.WithBotTop

/-!
# Doubles as Exact Numbers

What number a double is, and which double is nearest to a number.

Every double that is not NaN is a rational number or one of the two infinities. The
order of doubles, which is read off their bits, is the order of these numbers. So a
comparison of doubles is a comparison of exact numbers, and rounding is the only thing
that can make a difference to one that starts from an integer.

Rounding returns the nearest double, and of two that are equally near the even one.
That follows from what it does within a block, where it returns the nearest multiple
of the distance between neighbours. The doubles of larger blocks are such multiples
too, and those of smaller blocks are no nearer than the lowest double of the block.

A double is the double nearest to its own number, and rounding never turns numbers
around. Together this says that an integer and its double lie on one side of every
other double. An integer of 64 bits has a finite double, so that is also true of the
infinities.

## Main definitions

* `Nearer`: One number is nearer to a third than another.
* `Binary64.value`: The rational number that a finite double is.
* `Binary64.exact`: The number that a double is, or its infinity.
* `Binary64.IsNearest`: A double is the nearest to a number.

## Theorems

* `Binary64.nearestMagnitude_unitsOf`: A double is nearest to its own size.
* `Binary64.unitsOf_nearer`: No other double is nearer to a size than the one it is
  rounded to.
* `Binary64.exact_lt_iff`: The order of doubles is the order of numbers.
* `Binary64.ofInt_sides`: An integer is on the same side of other doubles as the double
  it stands for.
* `Binary64.exact_ofInt`: Integers within 2^53 are the numbers that their doubles are.
* `Binary64.isNearest_ofInt`: Integers are rounded to the nearest double.
-/

namespace Decision

/-! ## Nearest multiples -/

/-- A number is nearer to a target than another one is, or the two are equally near and
    ties go to it. -/
def Nearer (tie : Prop) (target near far : Int) : Prop :=
  (near - target).natAbs < (far - target).natAbs ∨
    (near - target).natAbs = (far - target).natAbs ∧ tie

/-- A quotient is moved by less than a half, or by a half to an even number. -/
theorem roundHalfEven_spec (n : Nat) {d : Nat} (hd : 0 < d) :
    2 * ((roundHalfEven n d * d : Nat) - n : Int).natAbs < d ∨
      2 * ((roundHalfEven n d * d : Nat) - n : Int).natAbs = d ∧ roundHalfEven n d % 2 = 0 := by
  have hn : n / d * d + n % d = n := Nat.div_add_mod' n d
  have hr : n % d < d := Nat.mod_lt _ hd
  have hnext : (n / d + 1) * d = n / d * d + d := Nat.succ_mul _ _
  unfold roundHalfEven
  simp only
  split
  · left
    omega
  · split
    · left
      rw [hnext]
      omega
    · right
      rcases Nat.mod_two_eq_zero_or_one (n / d) with heven | hodd
      · rw [heven, Nat.add_zero]
        omega
      · rw [hodd, hnext]
        omega

theorem roundHalfEven_nearer (n : Nat) {d k : Nat} (hd : 0 < d) (hk : k ≠ roundHalfEven n d) :
    Nearer (roundHalfEven n d % 2 = 0) n (roundHalfEven n d * d : Nat) (k * d : Nat) := by
  have hspec := roundHalfEven_spec n hd
  -- Another multiple is a whole step away.
  have hstep : k * d + d ≤ roundHalfEven n d * d ∨ roundHalfEven n d * d + d ≤ k * d := by
    rw [← Nat.succ_mul, ← Nat.succ_mul]
    rcases Nat.lt_or_gt_of_ne hk with hlt | hgt
    · exact .inl (Nat.mul_le_mul_right d hlt)
    · exact .inr (Nat.mul_le_mul_right d hgt)
  unfold Nearer
  omega

namespace Binary64

/-! ## Sizes -/

theorem exists_count (m : Nat) : ∃ b c, m = b * 2 ^ 52 + c ∧ c < 2 ^ 53 ∧ (b = 0 ∨ 2 ^ 52 ≤ c) := by
  by_cases h : m < 2 ^ 52
  · exact ⟨0, m, by omega, by omega, .inl rfl⟩
  · exact ⟨m / 2 ^ 52 - 1, 2 ^ 52 + m % 2 ^ 52, by omega, by omega, .inr (by omega)⟩

theorem infinityMagnitude_eq : infinityMagnitude = 2047 * 2 ^ 52 := Nat.shiftLeft_eq _ _

/-- A double is nearest to its own size. -/
theorem nearestMagnitude_unitsOf {m : Nat} (h : m < infinityMagnitude) :
    nearestMagnitude (unitsOf m) 1 = m := by
  rcases exists_count m with ⟨b, c, rfl, hhigh, hlow⟩
  rw [infinityMagnitude_eq] at h
  -- Below infinity there are no blocks but the first 2046.
  rw [unitsOf_of_count hlow (Nat.le_of_lt hhigh), nearestMagnitude_of_count hlow hhigh (by omega)]

theorem unitsOf_lt_unitsOf {m n : Nat} (h : m < n) (hn : n < infinityMagnitude) :
    unitsOf m < unitsOf n := by
  by_contra hle
  -- Rounding gives both magnitudes back, and it would have kept their order.
  have hmono := nearestMagnitude_mono Nat.one_pos (Nat.not_lt.mp hle)
  rw [nearestMagnitude_unitsOf hn, nearestMagnitude_unitsOf (Nat.lt_trans h hn)] at hmono
  omega

theorem unitsOf_lt_iff {m n : Nat} (hm : m < infinityMagnitude) (hn : n < infinityMagnitude) :
    unitsOf m < unitsOf n ↔ m < n := by
  constructor
  · intro h
    by_contra hle
    rcases Nat.eq_or_lt_of_le (Nat.not_lt.mp hle) with rfl | hlt
    · omega
    · have := unitsOf_lt_unitsOf hlt hm
      omega
  · exact fun h => unitsOf_lt_unitsOf h hn

/-- The doubles of a block and of larger ones are multiples of the distance between
    neighbours in the block. Those of smaller blocks are below them. -/
theorem unitsOf_block (b m : Nat) :
    (∃ k, unitsOf m = k * 2 ^ b) ∨ 0 < b ∧ unitsOf m < 2 ^ 52 * 2 ^ b := by
  rcases exists_count m with ⟨b', c, rfl, hhigh, hlow⟩
  rw [unitsOf_of_count hlow (Nat.le_of_lt hhigh)]
  by_cases h : b ≤ b'
  · refine .inl ⟨c * 2 ^ (b' - b), ?_⟩
    rw [Nat.mul_assoc, ← Nat.pow_add, Nat.sub_add_cancel h]
  · refine .inr ⟨by omega, ?_⟩
    calc c * 2 ^ b' < 2 ^ 53 * 2 ^ b' := Nat.mul_lt_mul_of_pos_right hhigh (Nat.two_pow_pos b')
      _ = 2 ^ 52 * 2 ^ (b' + 1) := by
          rw [Nat.pow_succ 2 b']
          omega
      _ ≤ 2 ^ 52 * 2 ^ b := Nat.mul_le_mul_left _ (Nat.pow_le_pow_right (by omega) (by omega))

/-- What a size is rounded to, as a block and a count. In all blocks but the first the
    size is not below the lowest double of the block. -/
theorem exists_rounded_count {n : Nat} (h : nearestMagnitude n 1 < infinityMagnitude) :
    ∃ b, nearestMagnitude n 1 = b * 2 ^ 52 + roundHalfEven n (2 ^ b) ∧
      unitsOf (nearestMagnitude n 1) = roundHalfEven n (2 ^ b) * 2 ^ b ∧
      (0 < b → 2 ^ 52 * 2 ^ b ≤ n) := by
  obtain ⟨b, hb⟩ : ∃ b, b = n.log2 - 52 := ⟨_, rfl⟩
  have hcount := count_le n Nat.one_pos
  have hlow := le_count n Nat.one_pos
  rw [Nat.div_one, ← hb, Nat.one_shiftLeft] at hcount hlow
  have hmagnitude : nearestMagnitude n 1 = b * 2 ^ 52 + roundHalfEven n (2 ^ b) := by
    have hmin : nearestMagnitude n 1 =
        min (b * 2 ^ 52 + roundHalfEven n (2 ^ b)) infinityMagnitude := by
      unfold nearestMagnitude
      simp only [Nat.div_one, Nat.shiftLeft_eq, Nat.one_mul, ← hb]
    -- The result is below infinity, so nothing has been cut off.
    omega
  refine ⟨b, hmagnitude, ?_, fun hpos => ?_⟩
  · rw [hmagnitude, unitsOf_of_count (by omega) hcount]
  · have hne : n ≠ 0 := by
      rintro rfl
      rw [Nat.log2_zero] at hb
      omega
    rw [← Nat.pow_add, show 52 + b = n.log2 by omega]
    exact Nat.log2_self_le hne

/-- No other double is nearer to a size than the one it is rounded to. -/
theorem unitsOf_nearer {n m : Nat} (hfinite : nearestMagnitude n 1 < infinityMagnitude)
    (hm : m < infinityMagnitude) (hne : m ≠ nearestMagnitude n 1) :
    Nearer (nearestMagnitude n 1 % 2 = 0) n (unitsOf (nearestMagnitude n 1)) (unitsOf m) := by
  rcases exists_rounded_count hfinite with ⟨b, hmagnitude, hunits, hlowest⟩
  have heven : nearestMagnitude n 1 % 2 = roundHalfEven n (2 ^ b) % 2 := by omega
  have hnearest : ∀ {k}, k ≠ roundHalfEven n (2 ^ b) → Nearer (roundHalfEven n (2 ^ b) % 2 = 0) n
      (roundHalfEven n (2 ^ b) * 2 ^ b : Nat) (k * 2 ^ b : Nat) :=
    fun hk => roundHalfEven_nearer n (Nat.two_pow_pos b) hk
  rcases unitsOf_block b m with ⟨k, hk⟩ | ⟨hpos, hbelow⟩
  · rw [heven, hunits, hk]
    refine hnearest ?_
    rintro rfl
    -- Different doubles have different sizes.
    rw [← hunits] at hk
    refine hne ?_
    rw [← nearestMagnitude_unitsOf hm, hk, nearestMagnitude_unitsOf hfinite]
  · -- The lowest double of the block is nearer than all that are below it.
    have hn := hlowest hpos
    have hle : ((roundHalfEven n (2 ^ b) * 2 ^ b : Nat) - n : Int).natAbs ≤
        ((2 ^ 52 * 2 ^ b : Nat) - n : Int).natAbs := by
      by_cases hk : 2 ^ 52 = roundHalfEven n (2 ^ b)
      · rw [hk]
      · rcases hnearest hk with hlt | heq
        · exact Nat.le_of_lt hlt
        · exact Nat.le_of_eq heq.1
    rw [hunits]
    refine .inl (Nat.lt_of_le_of_lt hle ?_)
    omega

/-! ## Signed sizes -/

theorem isFinite_iff {x : Binary64} : x.isFinite = true ↔ x.magnitude < infinityMagnitude :=
  decide_eq_true_iff

theorem natAbs_signedUnits (x : Binary64) : x.signedUnits.natAbs = x.units := by
  unfold signedUnits
  split
  · rw [Int.natAbs_neg, Int.natAbs_natCast]
  · exact Int.natAbs_natCast _

theorem units_pos_iff {x : Binary64} (h : x.isFinite = true) : 0 < x.units ↔ 0 < x.magnitude := by
  have hlt := unitsOf_lt_iff (m := 0) (by decide) (isFinite_iff.mp h)
  rw [unitsOf_of_lt (by decide)] at hlt
  exact hlt

/-- The order of finite doubles is the order of their exact sizes. -/
theorem signedUnits_lt_iff {x y : Binary64} (hx : x.isFinite = true) (hy : y.isFinite = true) :
    x.signedUnits < y.signedUnits ↔ x.position < y.position := by
  have hlt : x.units < y.units ↔ x.magnitude < y.magnitude :=
    unitsOf_lt_iff (isFinite_iff.mp hx) (isFinite_iff.mp hy)
  have hgt : y.units < x.units ↔ y.magnitude < x.magnitude :=
    unitsOf_lt_iff (isFinite_iff.mp hy) (isFinite_iff.mp hx)
  have hposx := units_pos_iff hx
  have hposy := units_pos_iff hy
  -- On two sides of zero the signs decide, unless both doubles are zero.
  unfold signedUnits position
  cases x.negative <;> cases y.negative <;>
    simp only [Bool.false_eq_true, if_true, if_false] <;> omega

/-- A finite double is the double nearest to its own exact size. -/
theorem position_ofUnits_signedUnits {x : Binary64} (h : x.isFinite = true) :
    (ofUnits x.signedUnits).position = x.position := by
  have hmagnitude : (ofUnits x.signedUnits).magnitude = x.magnitude := by
    show nearestMagnitude x.signedUnits.natAbs 1 = x.magnitude
    rw [natAbs_signedUnits]
    exact nearestMagnitude_unitsOf (isFinite_iff.mp h)
  have hsign : (ofUnits x.signedUnits).negative = decide (x.signedUnits < 0) := rfl
  have hpos := units_pos_iff h
  unfold position
  rw [hmagnitude, hsign]
  unfold signedUnits
  cases x.negative <;> simp only [Bool.false_eq_true, if_true, if_false, decide_eq_true_eq] <;>
    split <;> omega

/-- Units are on the same side of another double as the double they are rounded to. -/
theorem position_ofUnits_lt_iff {n : Int} {x : Binary64} (h : x.isFinite = true)
    (hne : (ofUnits n).position ≠ x.position) :
    (ofUnits n).position < x.position ↔ n < x.signedUnits := by
  -- Both positions are those of rounded units now, and rounding keeps the order of units.
  rw [← position_ofUnits_signedUnits h] at hne ⊢
  constructor
  · intro hlt
    by_contra hle
    have := position_ofUnits_mono (Int.not_lt.mp hle)
    omega
  · intro hlt
    have := position_ofUnits_mono (Int.le_of_lt hlt)
    omega

/-- No other double is nearer to a number of units than the one it is rounded to. -/
theorem signedUnits_nearer {n : Int} {y : Binary64} (hfinite : (ofUnits n).isFinite = true)
    (hy : y.isFinite = true) (hne : y.position ≠ (ofUnits n).position) :
    Nearer ((ofUnits n).magnitude % 2 = 0) n (ofUnits n).signedUnits y.signedUnits := by
  have hsign : (ofUnits n).negative = decide (n < 0) := rfl
  have hnearest : ∀ {m}, m < infinityMagnitude → m ≠ (ofUnits n).magnitude →
      Nearer ((ofUnits n).magnitude % 2 = 0) n.natAbs (ofUnits n).units (unitsOf m) :=
    fun hm h => unitsOf_nearer (isFinite_iff.mp hfinite) hm h
  have hnear : ((ofUnits n).signedUnits - n).natAbs =
      ((ofUnits n).units - n.natAbs : Int).natAbs := by
    unfold signedUnits
    simp only [hsign, decide_eq_true_eq]
    split <;> omega
  -- On one side of zero a distance is one of sizes, and through zero it is their sum.
  have hfar : y.magnitude ≠ (ofUnits n).magnitude ∧
        (y.signedUnits - n).natAbs = (y.units - n.natAbs : Int).natAbs ∨
      0 < y.units ∧ (y.signedUnits - n).natAbs = y.units + n.natAbs := by
    have hpos := units_pos_iff hy
    unfold position at hne
    unfold signedUnits
    cases hside : y.negative <;>
      simp only [hside, hsign, decide_eq_true_eq, Bool.false_eq_true, if_true, if_false]
        at hne ⊢ <;>
      split at hne <;> omega
  unfold Nearer
  rw [hnear]
  rcases hfar with ⟨hmagnitude, hfar⟩ | ⟨hpos, hfar⟩
  · rw [hfar]
    exact hnearest (isFinite_iff.mp hy) hmagnitude
  · -- Zero is nearer than what lies behind it.
    have hzero : ((ofUnits n).units - n.natAbs : Int).natAbs ≤ n.natAbs := by
      by_cases hm : (0 : Nat) = (ofUnits n).magnitude
      · have hunits : (ofUnits n).units = 0 := by
          unfold units
          rw [← hm]
          exact unitsOf_of_lt (by decide)
        omega
      · have hnear := hnearest (by decide) hm
        rw [unitsOf_of_lt (by decide)] at hnear
        unfold Nearer at hnear
        omega
    exact .inl (by omega)

/-! ## Exact numbers -/

/-- The rational number that a finite double is. -/
def value (x : Binary64) : ℚ := x.signedUnits / unitsPerOne

/-- The number that a double is, if it is not NaN. -/
def exact (x : Binary64) : WithBotTop ℚ :=
  if x.isFinite then (x.value : WithBotTop ℚ) else if x.negative then ⊥ else ⊤

theorem unitsPerOne_cast_pos : (0 : ℚ) < unitsPerOne := Nat.cast_pos.mpr unitsPerOne_pos

theorem value_lt_value {x y : Binary64} : x.value < y.value ↔ x.signedUnits < y.signedUnits := by
  unfold value
  rw [div_lt_div_iff_of_pos_right unitsPerOne_cast_pos, Int.cast_lt]

theorem intCast_lt_value {n : Int} {x : Binary64} :
    (n : ℚ) < x.value ↔ n * unitsPerOne < x.signedUnits := by
  unfold value
  rw [lt_div_iff₀ unitsPerOne_cast_pos, ← Int.cast_natCast, ← Int.cast_mul, Int.cast_lt]

theorem value_lt_intCast {n : Int} {x : Binary64} :
    x.value < (n : ℚ) ↔ x.signedUnits < n * unitsPerOne := by
  unfold value
  rw [div_lt_iff₀ unitsPerOne_cast_pos, ← Int.cast_natCast, ← Int.cast_mul, Int.cast_lt]

/-- A double that is not NaN is finite or one of the two infinities, which stand at the
    two ends of the order. -/
theorem exact_cases {x : Binary64} (h : x.isNaN = false) :
    (x.isFinite = true ∧ x.exact = (x.value : WithBotTop ℚ) ∧
      -(infinityMagnitude : Int) < x.position ∧ x.position < infinityMagnitude) ∨
    (x.exact = ⊥ ∧ x.position = -(infinityMagnitude : Int)) ∨
    (x.exact = ⊤ ∧ x.position = infinityMagnitude) := by
  have hle : x.magnitude ≤ infinityMagnitude := Nat.not_lt.mp (of_decide_eq_false h)
  unfold exact position
  by_cases hfinite : x.isFinite = true
  · have hlt := isFinite_iff.mp hfinite
    rw [if_pos hfinite]
    refine .inl ⟨hfinite, rfl, ?_⟩
    split <;> omega
  · have hge := mt isFinite_iff.mpr hfinite
    rw [if_neg hfinite]
    cases x.negative with
    | true =>
        refine .inr (.inl ⟨rfl, ?_⟩)
        rw [if_pos rfl]
        omega
    | false =>
        refine .inr (.inr ⟨rfl, ?_⟩)
        rw [if_neg Bool.false_ne_true]
        omega

/-- The order of doubles is the order of numbers. -/
theorem exact_lt_iff {x y : Binary64} (hx : x.isNaN = false) (hy : y.isNaN = false) :
    x.exact < y.exact ↔ x.position < y.position := by
  rcases exact_cases hx with ⟨hfinite, hexact, hlow, hhigh⟩ | ⟨hexact, hplace⟩ | ⟨hexact, hplace⟩
  · rcases exact_cases hy with ⟨hfinite', hexact', hlow', hhigh'⟩ | ⟨hexact', hplace'⟩ |
      ⟨hexact', hplace'⟩
    · rw [hexact, hexact', WithBotTop.coe_lt_coe, value_lt_value,
        signedUnits_lt_iff hfinite hfinite']
    · rw [hexact', hplace']
      exact iff_of_false not_lt_bot (by omega)
    · rw [hexact, hexact', hplace']
      exact iff_of_true (lt_top_iff_ne_top.mpr (WithBotTop.coe_ne_top _)) hhigh
  · rw [hexact, hplace]
    rcases exact_cases hy with ⟨-, hexact', hlow', -⟩ | ⟨hexact', hplace'⟩ | ⟨hexact', hplace'⟩
    · rw [hexact']
      exact iff_of_true (bot_lt_iff_ne_bot.mpr (WithBotTop.coe_ne_bot _)) hlow'
    · rw [hexact', hplace']
      exact iff_of_false (lt_irrefl _) (lt_irrefl _)
    · rw [hexact', hplace']
      exact iff_of_true bot_lt_top (by decide)
  · rw [hexact, hplace]
    refine iff_of_false not_top_lt ?_
    rcases exact_cases hy with ⟨-, -, -, hhigh'⟩ | ⟨-, hplace'⟩ | ⟨-, hplace'⟩ <;> omega

theorem exact_eq_iff {x y : Binary64} (hx : x.isNaN = false) (hy : y.isNaN = false) :
    x.exact = y.exact ↔ x.position = y.position := by
  have hlt := exact_lt_iff hx hy
  have hgt := exact_lt_iff hy hx
  constructor
  · intro h
    rw [h] at hlt hgt
    have := mt hlt.mpr (lt_irrefl _)
    have := mt hgt.mpr (lt_irrefl _)
    omega
  · intro h
    exact le_antisymm (not_lt.mp (mt hgt.mp (by omega))) (not_lt.mp (mt hlt.mp (by omega)))

/-! ## Integers -/

/-- Integers of 64 bits have a finite double. -/
theorem isFinite_ofInt {n : Int} (h : n.natAbs ≤ 2 ^ 63) : (ofInt n).isFinite = true := by
  have hshift : ∀ e, n.natAbs * 1 <<< e ≤ 2 ^ 52 * 2 ^ (e + 11) := by
    intro e
    have hle := Nat.mul_le_mul_right (2 ^ e) h
    rw [Nat.one_shiftLeft, Nat.pow_add 2 e 11]
    omega
  have hunits : n.natAbs * unitsPerOne ≤ 2 ^ 52 * 2 ^ (1074 + 11) := hshift 1074
  have hmono := nearestMagnitude_mono Nat.one_pos hunits
  -- The largest size is a double itself, far from infinity.
  rw [nearestMagnitude_of_count (.inr (Nat.le_refl _)) (by decide) (by decide)] at hmono
  rw [isFinite_iff, infinityMagnitude_eq]
  exact Nat.lt_of_le_of_lt hmono (by decide)

/-- An integer is below the same doubles as its own double, and above the same ones. -/
theorem ofInt_sides {n : Int} {x : Binary64} (hn : (ofInt n).isFinite = true)
    (hx : x.isNaN = false) (hne : (ofInt n).exact ≠ x.exact) :
    ((ofInt n).exact < x.exact ↔ ((n : ℚ) : WithBotTop ℚ) < x.exact) ∧
      (x.exact < (ofInt n).exact ↔ x.exact < ((n : ℚ) : WithBotTop ℚ)) := by
  have hvalue : (ofInt n).exact = ((ofInt n).value : WithBotTop ℚ) := if_pos hn
  rcases exact_cases hx with ⟨hfinite, hexact, -, -⟩ | ⟨hexact, -⟩ | ⟨hexact, -⟩
  · have hnan := isNaN_ofInt n
    rw [ne_eq, exact_eq_iff hnan hx, ofInt_eq_ofUnits] at hne
    have hlt := position_ofUnits_lt_iff hfinite hne
    have hunits : n * unitsPerOne ≠ x.signedUnits := by
      -- An integer that is the double itself is rounded to it.
      intro heq
      rw [heq] at hne
      exact hne (position_ofUnits_signedUnits hfinite)
    rw [exact_lt_iff hnan hx, exact_lt_iff hx hnan, hexact, WithBotTop.coe_lt_coe,
      WithBotTop.coe_lt_coe, intCast_lt_value, value_lt_intCast, ofInt_eq_ofUnits]
    exact ⟨hlt, by omega⟩
  · have hbot : ∀ q : ℚ, ⊥ < (q : WithBotTop ℚ) :=
      fun q => bot_lt_iff_ne_bot.mpr (WithBotTop.coe_ne_bot q)
    rw [hvalue, hexact]
    exact ⟨iff_of_false not_lt_bot not_lt_bot, iff_of_true (hbot _) (hbot _)⟩
  · have htop : ∀ q : ℚ, (q : WithBotTop ℚ) < ⊤ :=
      fun q => lt_top_iff_ne_top.mpr (WithBotTop.coe_ne_top q)
    rw [hvalue, hexact]
    exact ⟨iff_of_true (htop _) (htop _), iff_of_false not_top_lt not_top_lt⟩

/-- Integers within 2^53 are the numbers that their doubles are. -/
theorem exact_ofInt {n : Int} (h : n.natAbs ≤ 2 ^ 53) :
    (ofInt n).exact = ((n : ℚ) : WithBotTop ℚ) := by
  have hfinite : (ofInt n).isFinite = true := isFinite_ofInt (by omega)
  have hunits : (ofInt n).signedUnits = n * unitsPerOne := by
    have hsign : (ofInt n).negative = decide (n < 0) := rfl
    unfold signedUnits
    rw [hsign, units_ofInt h]
    simp only [decide_eq_true_eq]
    push_cast
    split
    · next hneg => rw [abs_of_neg hneg, Int.neg_mul, Int.neg_neg]
    · next hneg => rw [abs_of_nonneg (Int.not_lt.mp hneg)]
  have hvalue : (ofInt n).value = n := by
    unfold value
    rw [hunits, Int.cast_mul, Int.cast_natCast, mul_div_cancel_right₀ _ unitsPerOne_cast_pos.ne']
  rw [← hvalue]
  exact if_pos hfinite

/-! ## Nearest doubles -/

/-- A finite double that no finite double is nearer to a number than. Of two equally
    near ones it is the even one. -/
structure IsNearest (x : Binary64) (q : ℚ) : Prop where
  isFinite : x.isFinite = true
  le : ∀ y : Binary64, y.isFinite = true → |x.value - q| ≤ |y.value - q|
  even : ∀ y : Binary64, y.isFinite = true → |y.value - q| = |x.value - q| →
    y.value = x.value ∨ x.magnitude % 2 = 0

theorem abs_value_sub (x : Binary64) (n : Int) :
    |x.value - n| = ((x.signedUnits - n * unitsPerOne).natAbs : ℚ) / unitsPerOne := by
  have hsub : x.value - n = ((x.signedUnits - n * unitsPerOne : Int) : ℚ) / unitsPerOne := by
    unfold value
    rw [Int.cast_sub, Int.cast_mul, Int.cast_natCast, sub_div,
      mul_div_cancel_right₀ _ unitsPerOne_cast_pos.ne']
  rw [hsub, abs_div, abs_of_pos unitsPerOne_cast_pos, Nat.cast_natAbs, Int.cast_abs]

/-- An integer is rounded to the nearest double. -/
theorem isNearest_ofInt {n : Int} (h : (ofInt n).isFinite = true) : (ofInt n).IsNearest n := by
  have hnearer : ∀ y : Binary64, y.isFinite = true → y.value = (ofInt n).value ∨
      Nearer ((ofInt n).magnitude % 2 = 0) (n * unitsPerOne) (ofInt n).signedUnits
        y.signedUnits := by
    intro y hy
    by_cases hplace : y.position = (ofInt n).position
    · -- The two zeros are different doubles at one place.
      left
      have hlt := signedUnits_lt_iff hy h
      have hgt := signedUnits_lt_iff h hy
      unfold value
      rw [show y.signedUnits = (ofInt n).signedUnits by omega]
    · right
      rw [ofInt_eq_ofUnits] at h hplace ⊢
      exact signedUnits_nearer h hy hplace
  refine ⟨h, fun y hy => ?_, fun y hy heq => ?_⟩
  · rcases hnearer y hy with hvalue | hnear
    · rw [hvalue]
    · rw [abs_value_sub, abs_value_sub, div_le_div_iff_of_pos_right unitsPerOne_cast_pos,
        Nat.cast_le]
      unfold Nearer at hnear
      omega
  · rcases hnearer y hy with hvalue | hnear
    · exact .inl hvalue
    · right
      rw [abs_value_sub, abs_value_sub, div_left_inj' unitsPerOne_cast_pos.ne', Nat.cast_inj] at heq
      unfold Nearer at hnear
      omega

end Binary64

end Decision
