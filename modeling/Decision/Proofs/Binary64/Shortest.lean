import Decision.Binary64.Shortest
import Decision.Proofs.Binary64.Integer

/-!
# The Shortest Decimal of a Double

When the shortest decimal number of a double is an integer, and which one.

A double attracts the integers that are rounded to it. They lie around it without
a gap, since rounding keeps the order of numbers, and a double that attracts an
integer at all is an integer: where the doubles are closer together than the
integers are, every integer is a double. So the search for the shortest decimal
stops above the point exactly for the doubles that are integers.

The grids of the search are nested, so it stops at the highest power of ten with a
multiple that is attracted. If the double is on that grid it is the multiple that
is found. If it is not, what is found is another integer, and that happens: from
some size on a double attracts several integers, and one of those may end in a zero
where the double does not. Up to 2^54 it cannot happen. There an attracted integer
that ends in a zero is even, and the even integers are doubles themselves.

## Main definitions

* `Attracts`: An integer is rounded to the size of a double.
* `signed`: A size with the sign of a double.
* `places`: Where the search for the shortest decimal starts.

## Theorems

* `Attracts.of_le`: What lies between two attracted integers is attracted.
* `isWhole_of_attracts`: Only integers attract integers.
* `le_units_of_attracts`, `units_le_of_attracts`: An attracted integer is on the same
  side of a double as the double that attracts it.
* `attracts_of_beq`, `beq_of_attracts`: Which integers stand for a double.
* `eq_of_attracts`: Up to 2^54 an attracted integer that ends in a zero is the double.
* `readsBack_iff`: An integer reads back if it is attracted.
* `shortest_exponent_neg`: The shortest decimal of a fraction has places behind the point.
* `exists_shortest`, `exists_shortest_iff`: The shortest decimal of an integer.
-/

namespace Decision

namespace Binary64

/-! ## Integers that are rounded to a double -/

/-- An integer of this size is rounded to the size of the double. -/
def Attracts (x : Binary64) (n : Nat) : Prop :=
  nearestMagnitude (n * unitsPerOne) 1 = x.magnitude

variable {x : Binary64}

/-- What lies between two attracted integers is attracted. -/
theorem Attracts.of_le {low n high : Nat} (hlow : x.Attracts low) (hhigh : x.Attracts high)
    (hle : low ≤ n) (hge : n ≤ high) : x.Attracts n := by
  have hbelow := nearestMagnitude_mono Nat.one_pos (Nat.mul_le_mul_right unitsPerOne hle)
  have habove := nearestMagnitude_mono Nat.one_pos (Nat.mul_le_mul_right unitsPerOne hge)
  unfold Attracts at hlow hhigh ⊢
  omega

/-- A finite double that is an integer attracts it. -/
theorem attracts_of_units {n : Nat} (hfinite : x.isFinite = true)
    (hunits : x.units = n * unitsPerOne) : x.Attracts n := by
  unfold Attracts
  rw [← hunits]
  exact nearestMagnitude_unitsOf (isFinite_iff.mp hfinite)

theorem not_attracts_zero (hzero : x.magnitude ≠ 0) : ¬ x.Attracts 0 := by
  intro h
  unfold Attracts at h
  rw [Nat.zero_mul] at h
  exact hzero h.symm

/-- The double that an integer is rounded to is an integer, if it is finite. -/
theorem dvd_unitsOf_nearestMagnitude {n : Nat}
    (hfinite : nearestMagnitude (n * unitsPerOne) 1 < infinityMagnitude) :
    unitsPerOne ∣ unitsOf (nearestMagnitude (n * unitsPerOne) 1) := by
  rcases exists_rounded_count hfinite with ⟨b, _, hunits, _⟩
  obtain ⟨e, hone⟩ : ∃ e, unitsPerOne = 1 <<< e := ⟨1074, rfl⟩
  rw [Nat.one_shiftLeft] at hone
  rw [hunits]
  by_cases hb : e ≤ b
  · -- Neighbours are a whole number of ones apart.
    rw [hone]
    exact (Nat.pow_dvd_pow 2 hb).mul_left _
  · have hsplit : n * unitsPerOne = n * 2 ^ (e - b) * 2 ^ b := by
      rw [hone, Nat.mul_assoc, ← Nat.pow_add, Nat.sub_add_cancel (by omega)]
    rw [hsplit, roundHalfEven_mul _ (Nat.two_pow_pos b), ← hsplit]
    exact Nat.dvd_mul_left _ _

/-- Only integers attract integers. -/
theorem isWhole_of_attracts {n : Nat} (hfinite : x.isFinite = true) (h : x.Attracts n) :
    x.isWhole = true := by
  have hdvd := dvd_unitsOf_nearestMagnitude (n := n) (h ▸ isFinite_iff.mp hfinite)
  unfold Attracts at h
  rw [h] at hdvd
  rw [isWhole, hfinite, Bool.true_and, beq_iff_eq]
  exact Nat.mod_eq_zero_of_dvd hdvd

theorem unitsOf_le_unitsOf {m n : Nat} (h : m ≤ n) (hn : n < infinityMagnitude) :
    unitsOf m ≤ unitsOf n := by
  rcases Nat.eq_or_lt_of_le h with rfl | hlt
  · exact Nat.le_refl _
  · exact Nat.le_of_lt (unitsOf_lt_unitsOf hlt hn)

/-- What is not above an attracted integer is not rounded above the double. -/
theorem le_units_of_attracts {a n : Nat} (hfinite : x.isFinite = true) (h : x.Attracts n)
    (hle : a ≤ n) : unitsOf (nearestMagnitude (a * unitsPerOne) 1) ≤ x.units := by
  have hmono := nearestMagnitude_mono Nat.one_pos (Nat.mul_le_mul_right unitsPerOne hle)
  unfold Attracts at h
  rw [h] at hmono
  exact unitsOf_le_unitsOf hmono (isFinite_iff.mp hfinite)

/-- What is not below an attracted integer is not rounded below the double. -/
theorem units_le_of_attracts {a n : Nat}
    (hfinite : nearestMagnitude (a * unitsPerOne) 1 < infinityMagnitude) (h : x.Attracts n)
    (hle : n ≤ a) : x.units ≤ unitsOf (nearestMagnitude (a * unitsPerOne) 1) := by
  have hmono := nearestMagnitude_mono Nat.one_pos (Nat.mul_le_mul_right unitsPerOne hle)
  unfold Attracts at h
  rw [h] at hmono
  exact unitsOf_le_unitsOf hmono hfinite

/-- Even integers are held exactly up to 2^54. -/
theorem unitsOf_nearestMagnitude_even {n : Nat} (heven : n % 2 = 0) (h : n ≤ 2 ^ 54) :
    unitsOf (nearestMagnitude (n * unitsPerOne) 1) = n * unitsPerOne := by
  by_cases hzero : n = 0
  · rw [hzero, Nat.zero_mul]
    rfl
  · -- Half of it fills 53 bits at most, and is shifted by one bit more.
    rcases exists_shift (n := n / 2) (e := 1075) (by omega) (by omega) (by omega) (by omega) with
      ⟨k, b, hlo, hhi, hb, hshift⟩
    have hunits : k * 2 ^ b = n * unitsPerOne := by
      have htwo : (1 : Nat) <<< 1075 = 2 * unitsPerOne := by decide +kernel
      rw [hshift, htwo, ← Nat.mul_assoc, Nat.div_mul_cancel (Nat.dvd_of_mod_eq_zero heven)]
    rw [← hunits, nearestMagnitude_of_count (.inr hlo) hhi hb,
      unitsOf_of_count (.inr hlo) (Nat.le_of_lt hhi)]

/-- Below 2^54 + 8 no integer attracts another one that ends in a zero. -/
theorem eq_of_attracts {n m : Nat} (hfinite : x.isFinite = true)
    (hunits : x.units = n * unitsPerOne) (hn : n < 2 ^ 54 + 8) (h : x.Attracts m)
    (hten : 10 ∣ m) : m = n := by
  have hm : m ≤ 2 ^ 54 := by
    by_contra hlarge
    -- The first such integer is above 2^54 + 4, and is rounded up.
    have hround := le_units_of_attracts (a := 2 ^ 54 + 6) hfinite h (by omega)
    have hup : unitsOf (nearestMagnitude ((2 ^ 54 + 6) * unitsPerOne) 1) =
        (2 ^ 54 + 8) * unitsPerOne := by decide +kernel
    rw [hup, hunits] at hround
    have := Nat.le_of_mul_le_mul_right hround unitsPerOne_pos
    omega
  have hexact := unitsOf_nearestMagnitude_even (by omega) hm
  unfold Attracts at h
  rw [h] at hexact
  exact Nat.eq_of_mul_eq_mul_right unitsPerOne_pos (hexact.symm.trans hunits)

/-! ## The sign of the double -/

/-- A size with the sign of a double. -/
def signed (x : Binary64) (n : Nat) : Int := if x.negative then -(n : Int) else n

theorem natAbs_signed (x : Binary64) (n : Nat) : (x.signed n).natAbs = n := by
  unfold signed
  split <;> omega

theorem signed_inj {x : Binary64} {m n : Nat} : x.signed m = x.signed n ↔ m = n := by
  constructor
  · intro h
    rw [← natAbs_signed x m, h, natAbs_signed]
  · exact congrArg x.signed

theorem signed_mul (x : Binary64) (m n : Nat) : x.signed (m * n) = x.signed m * n := by
  unfold signed
  split
  · rw [Int.natCast_mul, Int.neg_mul]
  · exact Int.natCast_mul m n

/-- What is rounded to a double has a size that the double attracts. -/
theorem attracts_of_beq {m : Int} (h : (ofInt m == x) = true) : x.Attracts m.natAbs := by
  have hposition := (beq_iff.mp h).2
  show (ofInt m).magnitude = x.magnitude
  unfold position at hposition
  split at hposition <;> split at hposition <;> omega

/-- An attracted size is rounded to the double, with the sign of the double. -/
theorem beq_of_attracts {m : Nat} (hnan : x.isNaN = false) (h : x.Attracts m) :
    (ofInt (x.signed m) == x) = true := by
  have hmagnitude : (ofInt (x.signed m)).magnitude = x.magnitude := by
    show nearestMagnitude ((x.signed m).natAbs * unitsPerOne) 1 = x.magnitude
    rw [natAbs_signed]
    exact h
  have hsign : (ofInt (x.signed m)).negative = decide (x.signed m < 0) := rfl
  refine beq_iff.mpr ⟨⟨isNaN_ofInt _, hnan⟩, ?_⟩
  unfold position
  rw [hmagnitude, hsign]
  by_cases hzero : m = 0
  · -- Zero has no sign, and then the double is zero.
    have hx : x.magnitude = 0 := by
      rw [← hmagnitude, hzero]
      unfold signed
      split <;> rfl
    rw [hx]
    split <;> split <;> rfl
  · unfold signed
    cases x.negative <;>
      simp only [Bool.false_eq_true, if_true, if_false, decide_eq_true_eq] <;> split <;> omega

/-! ## Decimals that read back -/

theorem lt_pow_length_digits (n : Nat) : n < 10 ^ (Numeral.digits n).length :=
  (Nat.length_toDigits_le_iff (by decide) Nat.length_toDigits_pos).mp (Nat.le_refl _)

/-- A number with more than some places is not below that power of ten. -/
theorem pow_le_of_lt_places {coefficient zeros k : Nat} (hzero : coefficient ≠ 0)
    (h : k < (Numeral.digits coefficient).length + zeros) :
    10 ^ k ≤ coefficient * 10 ^ zeros := by
  have hdigits : 10 ^ (k - zeros) ≤ coefficient := by
    rcases Nat.eq_zero_or_pos (k - zeros) with hnone | hpos
    · rw [hnone, Nat.pow_zero]
      exact Nat.pos_of_ne_zero hzero
    · by_contra hlt
      have hlength := (Nat.length_toDigits_le_iff (b := 10) (by decide) hpos).mpr
        (Nat.not_le.mp hlt)
      unfold Numeral.digits at h
      omega
  calc 10 ^ k ≤ 10 ^ (k - zeros + zeros) := Nat.pow_le_pow_right (by decide) (by omega)
    _ = 10 ^ (k - zeros) * 10 ^ zeros := Nat.pow_add _ _ _
    _ ≤ coefficient * 10 ^ zeros := Nat.mul_le_mul_right _ hdigits

/-- A whole decimal number is rounded as an integer, also where the number of its
    places alone tells the result. -/
theorem magnitude_ofDecimal (negative : Bool) (coefficient zeros : Nat) :
    (ofDecimal negative ⟨coefficient, zeros⟩).magnitude =
      nearestMagnitude (coefficient * 10 ^ zeros * unitsPerOne) 1 := by
  have hplaces : ¬ (⟨coefficient, zeros⟩ : Decimal).places < -330 := by
    unfold Decimal.places
    dsimp only
    omega
  unfold ofDecimal
  by_cases hzero : coefficient = 0
  · rw [if_pos (Or.inl hzero), hzero, Nat.zero_mul, Nat.zero_mul]
    rfl
  · rw [if_neg (not_or.mpr ⟨hzero, hplaces⟩)]
    split
    · next hlarge =>
        have hpow : (10 ^ 62) ^ 5 ≤ coefficient * 10 ^ zeros := by
          unfold Decimal.places at hlarge
          dsimp only at hlarge
          calc (10 ^ 62) ^ 5 = 10 ^ (62 * 5) := (pow_mul 10 62 5).symm
            _ ≤ coefficient * 10 ^ zeros := pow_le_of_lt_places hzero (by omega)
        -- So many places are more than the greatest double has.
        have hinfinity : nearestMagnitude ((10 ^ 62) ^ 5 * unitsPerOne) 1 = infinityMagnitude := by
          decide +kernel
        have hmono := nearestMagnitude_mono Nat.one_pos (Nat.mul_le_mul_right unitsPerOne hpow)
        rw [hinfinity] at hmono
        exact Nat.le_antisymm hmono (Nat.min_le_right _ _)
    · rfl

/-- A whole decimal number reads back as the size of a double if the double attracts
    it. -/
theorem readsBack_iff {coefficient zeros : Nat} :
    x.readsBack ⟨coefficient, zeros⟩ = true ↔ x.Attracts (coefficient * 10 ^ zeros) := by
  rw [readsBack, beq_iff_eq, magnitude_ofDecimal]
  exact Iff.rfl

/-! ## One grid -/

/-- What is found on a grid is one of the two multiples next to the double. -/
theorem onGrid?_cases {exponent : Int} {d : Decimal} (h : x.onGrid? exponent = some d) :
    d = ⟨multiples x.units exponent, exponent⟩ ∨
      d = ⟨multiples x.units exponent + 1, exponent⟩ ∧
        (x.readsBack ⟨multiples x.units exponent, exponent⟩ = true →
          2 * multiples x.units exponent + 1 ≤ multiples (2 * x.units) exponent) := by
  simp only [onGrid?] at h
  split at h
  · split at h
    · next hnearer =>
        exact .inr ⟨(Option.some.inj h).symm, fun _ => of_decide_eq_true hnearer⟩
    · exact .inl (Option.some.inj h).symm
  · exact .inl (Option.some.inj h).symm
  · next hlow _ =>
      exact .inr ⟨(Option.some.inj h).symm, fun hread => absurd (hlow ▸ hread) Bool.false_ne_true⟩
  · cases h

theorem onGrid?_eq_none {exponent : Int} (h : x.onGrid? exponent = none) :
    x.readsBack ⟨multiples x.units exponent, exponent⟩ = false ∧
      x.readsBack ⟨multiples x.units exponent + 1, exponent⟩ = false := by
  simp only [onGrid?] at h
  split at h
  · cases h
  · cases h
  · cases h
  · next hlow hhigh => exact ⟨hlow, hhigh⟩

theorem multiples_natCast {n : Nat} (zeros : Nat) :
    multiples (n * unitsPerOne) zeros = n / 10 ^ zeros := by
  show n * unitsPerOne / (unitsPerOne * 10 ^ zeros) = n / 10 ^ zeros
  rw [Nat.mul_comm n, Nat.mul_div_mul_left _ _ unitsPerOne_pos]

/-- What is found on a grid of whole multiples is attracted, and it is the double if
    that is on the grid. -/
theorem exists_of_onGrid? {zeros : Nat} {d : Decimal} (h : x.onGrid? zeros = some d) :
    ∃ c : Nat, d = ⟨c, zeros⟩ ∧ x.Attracts (c * 10 ^ zeros) ∧
      ∀ n, x.isFinite = true → x.units = n * unitsPerOne → 10 ^ zeros ∣ n → c * 10 ^ zeros = n := by
  have hread := onGrid?_readsBack h
  have hpow : 0 < 10 ^ zeros := Nat.pow_pos (by decide)
  rcases onGrid?_cases h with rfl | ⟨rfl, hnearer⟩
  · refine ⟨_, rfl, readsBack_iff.mp hread, fun n _ hunits hdvd => ?_⟩
    rw [hunits, multiples_natCast, Nat.div_mul_cancel hdvd]
  · refine ⟨_, rfl, readsBack_iff.mp hread, fun n hfinite hunits hdvd => ?_⟩
    -- The double itself reads back, and nothing is nearer to it.
    have hself : x.readsBack ⟨multiples x.units zeros, zeros⟩ = true := by
      rw [readsBack_iff, hunits, multiples_natCast, Nat.div_mul_cancel hdvd]
      exact attracts_of_units hfinite hunits
    have hfar := hnearer hself
    rw [hunits, ← Nat.mul_assoc, multiples_natCast, multiples_natCast,
      Nat.mul_div_assoc 2 hdvd] at hfar
    omega

/-- If nothing is found on a grid of whole multiples, none of them is attracted. -/
theorem not_attracts_of_onGrid? {n zeros : Nat} (hfinite : x.isFinite = true)
    (hunits : x.units = n * unitsPerOne) (h : x.onGrid? zeros = none) (c : Nat) :
    ¬ x.Attracts (c * 10 ^ zeros) := by
  intro hattracts
  have hself := attracts_of_units hfinite hunits
  have hpow : 0 < 10 ^ zeros := Nat.pow_pos (by decide)
  rcases onGrid?_eq_none h with ⟨hlow, hhigh⟩
  rw [hunits, multiples_natCast] at hlow hhigh
  -- The double lies between the two multiples, so the one on the other side of it is not
  -- farther away than the one that is attracted.
  rcases Nat.lt_or_ge (n / 10 ^ zeros) c with hlt | hge
  · have hnext : n ≤ (n / 10 ^ zeros + 1) * 10 ^ zeros := by
      rw [Nat.succ_mul]
      exact Nat.le_of_lt (Nat.lt_div_mul_add hpow)
    have hread := readsBack_iff.mpr
      (hself.of_le hattracts hnext (Nat.mul_le_mul_right _ hlt))
    exact Bool.false_ne_true (hhigh.symm.trans hread)
  · have hread := readsBack_iff.mpr
      (hattracts.of_le hself (Nat.mul_le_mul_right _ hge) (Nat.div_mul_le_self n _))
    exact Bool.false_ne_true (hlow.symm.trans hread)

/-! ## The search -/

/-- The search ends at the first grid where something is found, or at the last grid if
    nothing is. -/
theorem firstOnGrid_cases (x : Binary64) (steps : Nat) (exponent : Int) :
    (∃ k < steps, x.onGrid? (exponent - k) = some (firstOnGrid x steps exponent) ∧
      ∀ j : Nat, j < k → x.onGrid? (exponent - j) = none) ∨
    ((firstOnGrid x steps exponent).exponent = exponent - steps ∧
      ∀ j : Nat, j < steps → x.onGrid? (exponent - j) = none) := by
  induction steps generalizing exponent with
  | zero => exact .inr ⟨(Int.sub_zero exponent).symm, nofun⟩
  | succ steps ih =>
      have hshift : ∀ j : Nat, exponent - 1 - j = exponent - (j + 1 : Nat) := by omega
      rw [firstOnGrid]
      cases hfirst : x.onGrid? exponent with
      | some d =>
          refine .inl ⟨0, Nat.succ_pos _, ?_, nofun⟩
          rw [Nat.cast_zero, Int.sub_zero]
          exact hfirst
      | none =>
          -- Nothing was found on one more grid, the one in front.
          have hnone : ∀ {k}, (∀ j : Nat, j < k → x.onGrid? (exponent - 1 - j) = none) →
              ∀ j : Nat, j < k + 1 → x.onGrid? (exponent - j) = none := by
            intro k h j hj
            cases j with
            | zero =>
                rw [Nat.cast_zero, Int.sub_zero]
                exact hfirst
            | succ j =>
                rw [← hshift]
                exact h j (Nat.lt_of_succ_lt_succ hj)
          rcases ih (exponent - 1) with ⟨k, hk, hfound, hbefore⟩ | ⟨hlast, hbefore⟩
          · refine .inl ⟨k + 1, Nat.succ_lt_succ hk, ?_, hnone hbefore⟩
            rw [← hshift]
            exact hfound
          · refine .inr ⟨?_, hnone hbefore⟩
            rw [← hshift]
            exact hlast

/-- The places in front of the point of the integer before the point, where the search
    starts. -/
def places (x : Binary64) : Nat := (Numeral.digits (x.units / unitsPerOne)).length

/-- The search ends on a grid of whole multiples, with nothing on the grids above, or
    there is nothing on any of them. -/
theorem shortest_cases (x : Binary64) :
    (∃ zeros : Nat, zeros ≤ x.places ∧ x.onGrid? zeros = some x.shortest ∧
      ∀ k : Nat, zeros < k → k ≤ x.places → x.onGrid? k = none) ∨
    (x.shortest.exponent < 0 ∧ ∀ k : Nat, k ≤ x.places → x.onGrid? k = none) := by
  have hgrid : ∀ {k : Nat}, k ≤ x.places → (k : Int) = x.places - (x.places - k : Nat) := by
    intro k hk
    omega
  have hshortest : x.shortest = firstOnGrid x (x.places + 1074) x.places := rfl
  rcases firstOnGrid_cases x (x.places + 1074) x.places with
    ⟨steps, _, hfound, hbefore⟩ | ⟨hlast, hbefore⟩
  · rw [← hshortest] at hfound
    by_cases hsteps : steps ≤ x.places
    · refine .inl ⟨x.places - steps, Nat.sub_le _ _, ?_, fun k hlow hhigh => ?_⟩
      · rw [Int.ofNat_sub hsteps]
        exact hfound
      · rw [hgrid hhigh]
        exact hbefore _ (by omega)
    · refine .inr ⟨?_, fun k hk => ?_⟩
      · -- Both multiples have the exponent of the grid.
        rcases onGrid?_cases hfound with h | ⟨h, _⟩ <;> rw [h] <;>
          show (x.places : Int) - steps < 0 <;> omega
      · rw [hgrid hk]
        exact hbefore _ (by omega)
  · rw [← hshortest] at hlast
    refine .inr ⟨by omega, fun k hk => ?_⟩
    rw [hgrid hk]
    exact hbefore _ (by omega)

/-- The shortest decimal of a fraction has places behind the point. -/
theorem shortest_exponent_neg (hfinite : x.isFinite = true) (hfraction : x.isWhole = false) :
    x.shortest.exponent < 0 := by
  rcases shortest_cases x with ⟨zeros, _, hfound, _⟩ | ⟨hnegative, _⟩
  · rcases exists_of_onGrid? hfound with ⟨c, _, hattracts, _⟩
    rw [isWhole_of_attracts hfinite hattracts] at hfraction
    cases hfraction
  · exact hnegative

/-- The shortest decimal of an integer is an attracted integer. No other ends in more
    zeros, unless this one is larger than the double, and it is the double if that ends
    in as many. -/
theorem exists_shortest {n : Nat} (hfinite : x.isFinite = true) (hzero : x.magnitude ≠ 0)
    (hunits : x.units = n * unitsPerOne) :
    ∃ c zeros : Nat, x.shortest = ⟨c, zeros⟩ ∧ x.Attracts (c * 10 ^ zeros) ∧
      (10 ^ zeros ∣ n → c * 10 ^ zeros = n) ∧
      ∀ other, x.Attracts (other * 10 ^ (zeros + 1)) → c * 10 ^ zeros ≠ n := by
  rcases shortest_cases x with ⟨zeros, hle, hfound, habove⟩ | ⟨_, hnone⟩
  · rcases exists_of_onGrid? hfound with ⟨c, hshortest, hattracts, hdvd⟩
    refine ⟨c, zeros, hshortest, hattracts, hdvd n hfinite hunits, fun other hother => ?_⟩
    rcases Nat.lt_or_eq_of_le hle with hlt | rfl
    · exact absurd hother
        (not_attracts_of_onGrid? hfinite hunits (habove (zeros + 1) (by omega) hlt) other)
    · -- The highest grid has nothing but zero below the double.
      have hc : 0 < c := by
        refine Nat.pos_of_ne_zero ?_
        rintro rfl
        rw [Nat.zero_mul] at hattracts
        exact not_attracts_zero hzero hattracts
      have hlarge : n < 10 ^ x.places := by
        have hlength := lt_pow_length_digits (x.units / unitsPerOne)
        rw [hunits, Nat.mul_div_cancel n unitsPerOne_pos] at hlength
        rw [places, hunits, Nat.mul_div_cancel n unitsPerOne_pos]
        exact hlength
      exact (Nat.lt_of_lt_of_le hlarge (Nat.le_mul_of_pos_left _ hc)).ne'
  · -- On the lowest of these grids there is the double itself.
    refine absurd (attracts_of_units hfinite hunits) ?_
    have hself := not_attracts_of_onGrid? hfinite hunits (hnone 0 (Nat.zero_le _)) n
    rw [Nat.pow_zero, Nat.mul_one] at hself
    exact hself

/-- The shortest decimal of an integer is the integer exactly if no attracted one ends in
    more zeros. -/
theorem exists_shortest_iff {n : Nat} (hfinite : x.isFinite = true) (hzero : x.magnitude ≠ 0)
    (hunits : x.units = n * unitsPerOne) :
    ∃ c zeros : Nat, x.shortest = ⟨c, zeros⟩ ∧ x.Attracts (c * 10 ^ zeros) ∧
      (c * 10 ^ zeros = n ↔ ∀ other k, x.Attracts (other * 10 ^ k) → 10 ^ k ∣ n) := by
  rcases exists_shortest hfinite hzero hunits with ⟨c, zeros, hshortest, hattracts, hdvd, hmore⟩
  refine ⟨c, zeros, hshortest, hattracts, fun heq other k hother => ?_, fun h =>
    hdvd (h c zeros hattracts)⟩
  by_cases hk : k ≤ zeros
  · rw [← heq]
    exact (Nat.pow_dvd_pow 10 hk).mul_left c
  · -- A multiple of a higher power of ten is one of the next power.
    refine absurd heq (hmore (other * 10 ^ (k - (zeros + 1))) ?_)
    rw [Nat.mul_assoc, ← Nat.pow_add, Nat.sub_add_cancel (by omega)]
    exact hother

end Binary64

end Decision
