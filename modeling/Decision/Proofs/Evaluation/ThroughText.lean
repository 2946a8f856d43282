import Decision.Proofs.Conversion.Integers
import Decision.Proofs.Conversion.Kinds
import Decision.Proofs.Evaluation.Coercion
import Decision.Proofs.Numeral.Double

/-!
# Doubles Through Text

What becomes of a number that is turned into text on its way to an integer.

The text of a double is its shortest decimal number with all places. For a fraction,
an infinity and a NaN that is no integer, so nothing is converted that is not
converted directly. For an integer it is one, but not always the same. The shortest
decimal has to be rounded to the double and no more, so where doubles are far apart it
may have zeros for the last digits. A reader of doubles does not notice, and a reader
of integers takes the zeros for what they are.

Below 2^54 + 8 the two ways agree, and beyond that exactly if no integer with more
zeros at its end is rounded to the double. The least integer of 64 bits is the one
double where a way is lost. Its text is that of a number below the range.

A clause converts by the type that it declares, whatever its role. So all this also
holds of a value that is produced under one clause and bound to another.

## Main definitions

* `ThroughText`: How a conversion to an integer compares with one through text.
* `Binary64.YieldsSigned`: A conversion to an integer of some size.

## Theorems

* `Binary64.signed_in_range_iff`: When the integer that is read has 64 bits.
* `BasicType.throughText`: The long type, directly and through text.
* `Engine.longs_through_text`: The same for clauses as well.
-/

namespace Decision

open Binary64

/-! ## Two ways to an integer -/

/-- How the conversion of a double to an integer compares with one through the text of
    the double. -/
structure ThroughText {ε : Type} (x : Binary64) (direct through : Except ε Value) : Prop where
  /-- Both succeed or both fail, unless the double is the least integer, which is only
      converted directly. -/
  succeeds : (∃ value, through = .ok value) ↔ (∃ value, direct = .ok value) ∧ x ≠ longFloor
  /-- What comes out is an integer that is rounded to the double. -/
  rounded : ∀ value, through = .ok value →
    ∃ m : Int64, value = .int m ∧ (ofInt m.toInt == x) = true
  /-- It is the same integer exactly if no integer that is rounded to the double is a
      multiple of a power of ten that this one is no multiple of. -/
  same_iff : ∀ n : Int64, direct = .ok (.int n) → (through = .ok (.int n) ↔
    ∀ (c : Int) (k : Nat), (ofInt (c * 10 ^ k) == x) = true → 10 ^ k ∣ n.toInt)
  /-- For integers below 2^54 + 8 that is so. -/
  same : ∀ n : Int64, direct = .ok (.int n) → n.toInt.natAbs < 2 ^ 54 + 8 →
    through = .ok (.int n)

namespace ThroughText

variable {ε ε' : Type} {x : Binary64} {direct through : Except ε Value}

/-- Only what comes out counts. -/
theorem of_ok_iff {direct' through' : Except ε' Value} (h : ThroughText x direct through)
    (hdirect : ∀ value, direct' = .ok value ↔ direct = .ok value)
    (hthrough : ∀ value, through' = .ok value ↔ through = .ok value) :
    ThroughText x direct' through' where
  succeeds := by
    simp only [hdirect, hthrough]
    exact h.succeeds
  rounded value hvalue := h.rounded value ((hthrough value).mp hvalue)
  same_iff n hn := (hthrough _).trans (h.same_iff n ((hdirect _).mp hn))
  same n hn hsmall := (hthrough _).mpr (h.same n ((hdirect _).mp hn) hsmall)

/-- Two conversions that both fail. -/
theorem of_fails (hdirect : ∀ value, direct ≠ .ok value)
    (hthrough : ∀ value, through ≠ .ok value) : ThroughText x direct through where
  succeeds := iff_of_false (fun ⟨value, h⟩ => hthrough value h) fun ⟨⟨value, h⟩, _⟩ =>
    hdirect value h
  rounded value h := absurd h (hthrough value)
  same_iff _ h := absurd h (hdirect _)
  same _ h := absurd h (hdirect _)

end ThroughText

namespace Binary64

variable {x : Binary64}

/-- A conversion yields the 64-bit integer of a size with the sign of a double, if
    there is one. -/
def YieldsSigned {ε : Type} (x : Binary64) (n : Nat) (outcome : Except ε Value) : Prop :=
  ∀ value, outcome = .ok value ↔ ∃ k : Int64, value = .int k ∧ k.toInt = x.signed n

theorem YieldsSigned.exists_iff {ε : Type} {n : Nat} {outcome : Except ε Value}
    (h : x.YieldsSigned n outcome) :
    (∃ value, outcome = .ok value) ↔ -2 ^ 63 ≤ x.signed n ∧ x.signed n < 2 ^ 63 := by
  constructor
  · rintro ⟨value, hvalue⟩
    rcases (h value).mp hvalue with ⟨k, _, hk⟩
    rw [← hk]
    exact ⟨k.le_toInt, k.toInt_lt⟩
  · rintro ⟨hlow, hhigh⟩
    exact ⟨.int (Int64.ofInt (x.signed n)),
      (h _).mpr ⟨_, rfl, Int64.toInt_ofInt_of_le hlow hhigh⟩⟩

theorem YieldsSigned.int_iff {ε : Type} {n : Nat} {outcome : Except ε Value}
    (h : x.YieldsSigned n outcome) {k : Int64} :
    outcome = .ok (.int k) ↔ k.toInt = x.signed n := by
  rw [h]
  constructor
  · rintro ⟨m, hm, hk⟩
    rw [Value.int.inj hm]
    exact hk
  · exact fun hk => ⟨k, rfl, hk⟩

theorem unitsOf_limit :
    unitsOf (nearestMagnitude (2 ^ 63 * unitsPerOne) 1) = 2 ^ 63 * unitsPerOne := by
  decide +kernel

/-- The number above the range, with either sign, has a shortest decimal above it. -/
theorem shortest_of_limit (h : x.Attracts (2 ^ 63)) :
    x.shortest = ⟨9223372036854776, (3 : Nat)⟩ := by
  have hboth : ∀ negative, (ofRatio negative (2 ^ 63 * unitsPerOne) 1).shortest =
      ⟨9223372036854776, (3 : Nat)⟩ := by decide +kernel
  rcases x with ⟨negative, magnitude, hmagnitude⟩
  have hlimit : nearestMagnitude (2 ^ 63 * unitsPerOne) 1 = magnitude := h
  subst hlimit
  exact hboth negative

/-- The least integer is the number above the range with a minus sign. -/
theorem eq_longFloor_iff {n : Nat} (hfinite : x.isFinite = true)
    (hunits : x.units = n * unitsPerOne) :
    x = longFloor ↔ n = 2 ^ 63 ∧ x.negative = true := by
  constructor
  · rintro rfl
    have hfloor : longFloor.units = 2 ^ 63 * unitsPerOne := by decide +kernel
    rw [hfloor] at hunits
    exact ⟨(Nat.eq_of_mul_eq_mul_right unitsPerOne_pos hunits).symm, by decide⟩
  · rintro ⟨rfl, hnegative⟩
    have hattracts : nearestMagnitude (2 ^ 63 * unitsPerOne) 1 = x.magnitude :=
      attracts_of_units hfinite hunits
    rcases x with ⟨negative, magnitude, hmagnitude⟩
    subst hattracts hnegative
    rfl

section Signed

variable {n m : Nat} (hfinite : x.isFinite = true) (hunits : x.units = n * unitsPerOne)
  (hattracts : x.Attracts m) (hlimit : n = 2 ^ 63 → 2 ^ 63 < m)

include hfinite hunits hattracts hlimit

/-- An attracted integer is in range if the double is, unless that is the least
    integer. -/
theorem signed_in_range_iff :
    (-2 ^ 63 ≤ x.signed m ∧ x.signed m < 2 ^ 63) ↔
      (-2 ^ 63 ≤ x.signed n ∧ x.signed n < 2 ^ 63) ∧ x ≠ longFloor := by
  have hbelow : n < 2 ^ 63 → m < 2 ^ 63 := by
    intro hn
    by_contra hm
    have hle := le_units_of_attracts hfinite hattracts (Nat.not_lt.mp hm)
    rw [unitsOf_limit, hunits] at hle
    exact absurd (Nat.le_of_mul_le_mul_right hle unitsPerOne_pos) (Nat.not_le.mpr hn)
  have habove : 2 ^ 63 < n → 2 ^ 63 < m := by
    intro hn
    by_contra hm
    have hle := units_le_of_attracts (by decide +kernel) hattracts (Nat.not_lt.mp hm)
    rw [unitsOf_limit, hunits] at hle
    exact absurd (Nat.le_of_mul_le_mul_right hle unitsPerOne_pos) (Nat.not_le.mpr hn)
  rw [ne_eq, eq_longFloor_iff hfinite hunits]
  unfold signed
  cases x.negative with
  | true =>
      simp only [if_true, and_true]
      omega
  | false =>
      simp only [Bool.false_eq_true, if_false, and_false, not_false_eq_true, and_true]
      omega

/-- Two conversions of which one yields the double and the other an integer that is
    rounded to it. -/
theorem throughText_of_yieldsSigned {ε : Type} {direct through : Except ε Value}
    (hdirect : x.YieldsSigned n direct) (hthrough : x.YieldsSigned m through)
    (hsame : m = n ↔ ∀ c k, x.Attracts (c * 10 ^ k) → 10 ^ k ∣ n) :
    ThroughText x direct through where
  succeeds := by
    rw [hthrough.exists_iff, hdirect.exists_iff]
    exact signed_in_range_iff hfinite hunits hattracts hlimit
  rounded value hvalue := by
    rcases (hthrough value).mp hvalue with ⟨k, rfl, hk⟩
    refine ⟨k, rfl, ?_⟩
    rw [hk]
    exact beq_of_attracts (isNaN_of_isFinite hfinite) hattracts
  same_iff k hk := by
    have hvalue := hdirect.int_iff.mp hk
    rw [hthrough.int_iff, hvalue, signed_inj, eq_comm, hsame]
    -- What attracts the double by its size attracts it with its sign, and conversely.
    constructor
    · intro h c e hc
      have hsize := attracts_of_beq hc
      rw [Int.natAbs_mul, Int.natAbs_pow] at hsize
      rw [← Int.natAbs_dvd_natAbs, natAbs_signed, Int.natAbs_pow]
      exact h _ _ hsize
    · intro h c e hc
      have hdvd := h (x.signed c) e
      rw [← Int.natAbs_dvd_natAbs, natAbs_signed, Int.natAbs_pow] at hdvd
      refine hdvd ?_
      have hbeq := beq_of_attracts (isNaN_of_isFinite hfinite) hc
      rw [signed_mul, Nat.cast_pow] at hbeq
      exact hbeq
  same k hk hsmall := by
    have hvalue := hdirect.int_iff.mp hk
    rw [hvalue, natAbs_signed] at hsmall
    rw [hthrough.int_iff, hvalue, signed_inj, eq_comm, hsame]
    -- Below the limit no other multiple of ten is rounded to the double.
    intro c e hc
    cases e with
    | zero => exact Nat.one_dvd n
    | succ e =>
        have hten : 10 ∣ c * 10 ^ (e + 1) := (Nat.dvd_mul_left 10 (10 ^ e)).mul_left c
        rw [← eq_of_attracts hfinite hunits hsmall hc hten]
        exact Nat.dvd_mul_left _ _

end Signed

end Binary64

/-! ## The types and the clauses -/

namespace BasicType

variable {x : Binary64}

/-- Directly a double is converted to the integer that it is. -/
theorem yieldsSigned_long {n : Nat} (hfinite : x.isFinite = true)
    (hunits : x.units = n * unitsPerOne) : x.YieldsSigned n (long.convert (.float x)) := by
  intro value
  rw [(convert_integers (.float x)).1]
  refine exists_congr fun k => and_congr_right fun _ => ?_
  have hone : (unitsPerOne : Int) ≠ 0 := Int.natCast_ne_zero.mpr unitsPerOne_pos.ne'
  have hsigned : x.signedUnits = x.signed n * unitsPerOne := by
    rw [← signed_mul, ← hunits]
    rfl
  constructor
  · intro h
    generalize hk : k.toInt = size at h
    cases h with
    | float _ h =>
        rw [value_eq_intCast_iff, hsigned] at h
        exact (Int.eq_of_mul_eq_mul_right hone h).symm
  · intro hk
    rw [hk]
    exact .float hfinite (value_eq_intCast_iff.mpr hsigned)

theorem long_text_iff (value : Value) :
    (string.convert (.float x) >>= long.convert) = .ok value ↔
      ∃ k : Int64, value = .int k ∧
        Numeral.readInteger (Text.trim (Numeral.doubleText x)) = .ok k := by
  have hbind : (string.convert (.float x) >>= long.convert) =
      long.convert (.string (Value.float x).text) := pure_bind _ _
  rw [hbind, long_eq_ok_iff]
  refine exists_congr fun k => ?_
  rw [Value.toLong, mapError_eq_ok_iff, Value.text, String.toList_ofList, and_comm]

/-- The zeros are converted to the integer 0 on both ways. -/
theorem throughText_of_zero (hzero : x.magnitude = 0) :
    ThroughText x (long.convert (.float x)) (string.convert (.float x) >>= long.convert) := by
  have hx : x = zero x.negative := eq_zero_of_magnitude hzero
  generalize x.negative = negative at hx
  subst hx
  have hfinite : (zero negative).isFinite = true := by cases negative <;> decide
  have hunits : (zero negative).units = 0 * unitsPerOne := by cases negative <;> decide +kernel
  have hlimit : (0 : Nat) = 2 ^ 63 → 2 ^ 63 < 0 := by omega
  have hread : Numeral.readInteger (Text.trim (Numeral.doubleText (zero negative))) = .ok 0 := by
    cases negative <;> decide +kernel
  have hsigned : (zero negative).signed 0 = 0 := by cases negative <;> rfl
  refine throughText_of_yieldsSigned hfinite hunits (attracts_of_units hfinite hunits) hlimit
    (yieldsSigned_long hfinite hunits) (fun value => ?_) ?_
  · rw [long_text_iff, hread, hsigned]
    refine exists_congr fun k => and_congr_right fun _ => ?_
    rw [Except.ok.injEq, eq_comm, ← Int64.toInt_inj]
    exact Iff.rfl
  · exact iff_of_true rfl fun _ k _ => Nat.dvd_zero (10 ^ k)

/-- The long type, directly and through text. -/
theorem throughText (x : Binary64) :
    ThroughText x (long.convert (.float x)) (string.convert (.float x) >>= long.convert) := by
  cases hwhole : x.isWhole with
  | true =>
      -- The size of the double is an integer, and the text is about the size.
      rcases isWhole_iff.mp hwhole with ⟨hfinite, _⟩
      have hunits : x.units = x.units / unitsPerOne * unitsPerOne := by
        rw [isWhole, Bool.and_eq_true, beq_iff_eq] at hwhole
        exact (Nat.div_mul_cancel (Nat.dvd_of_mod_eq_zero hwhole.2)).symm
      generalize x.units / unitsPerOne = n at hunits
      by_cases hzero : x.magnitude = 0
      · exact throughText_of_zero hzero
      · rcases exists_shortest_iff hfinite hzero hunits with
          ⟨c, zeros, hshortest, hattracts, hsame⟩
        refine throughText_of_yieldsSigned hfinite hunits hattracts ?_
          (yieldsSigned_long hfinite hunits) (fun value => ?_) hsame
        · rintro rfl
          rw [shortest_of_limit (attracts_of_units hfinite hunits), Decimal.mk.injEq,
            Nat.cast_inj] at hshortest
          rw [← hshortest.1, ← hshortest.2]
          decide
        · rw [long_text_iff]
          exact exists_congr fun k => and_congr_right fun _ =>
            Numeral.readInteger_doubleText hfinite hzero hshortest k
  | false =>
      -- Neither way is there an integer for a fraction, an infinity or a NaN.
      refine .of_fails (fun value h => ?_) fun value h => ?_
      · rcases ((convert_integers (.float x)).1 value).mp h with ⟨k, _, hdenotes⟩
        generalize k.toInt = size at hdenotes
        cases hdenotes with
        | float hfinite hvalue =>
            rw [isWhole_iff.mpr ⟨hfinite, size, hvalue⟩] at hwhole
            cases hwhole
      · rcases (long_text_iff value).mp h with ⟨k, _, hread⟩
        exact Numeral.readInteger_doubleText_ne hwhole k hread

end BasicType

namespace Engine

variable {engine : Engine} {role role' : Role}

/-- A clause that declares a basic type converts by it, whatever its role. -/
theorem convert_of_basic (known : engine.converter? = Registry.standard.converter?)
    {clause : Clause role} {type : BasicType} (htype : clause.typeName = some type.name)
    {raw : Value} (hnull : raw.isNull = false) (value : Value) :
    engine.convert clause raw = .ok value ↔ type.convert raw = .ok value := by
  rw [convert_eq, htype]
  simp only [hnull, Bool.false_eq_true, if_false, known, Registry.converter?_standard,
    mapError_eq_ok_iff]

/-- A double that is produced under a clause of the string type and bound to one of the
    long type, against the double that is bound directly. -/
theorem throughText_of_standard (known : engine.converter? = Registry.standard.converter?)
    {produced : Clause role} {bound : Clause role'}
    (hproduced : produced.typeName = some BasicType.string.name)
    (hbound : bound.typeName = some BasicType.long.name) (x : Binary64) :
    ThroughText x (engine.convert bound (.float x))
      (engine.convert produced (.float x) >>= engine.convert bound) := by
  refine (BasicType.throughText x).of_ok_iff (convert_of_basic known hbound rfl) fun value => ?_
  rw [bind_eq_ok_iff, bind_eq_ok_iff]
  refine exists_congr fun text => ?_
  rw [convert_of_basic known hproduced rfl]
  refine and_congr_right fun htext => ?_
  have hstring : Except.ok (Value.string (Value.float x).text) = Except.ok text := htext
  rw [← Except.ok.inj hstring]
  exact convert_of_basic known hbound rfl value

/-- Through its text a double is converted to the integer it is converted to directly,
    as far as `ThroughText` goes, by the types and under clauses that declare them. -/
theorem longs_through_text (x : Binary64) :
    ThroughText x (BasicType.long.convert (.float x))
      (BasicType.string.convert (.float x) >>= BasicType.long.convert) ∧
    ∀ (engine : Engine) (role role' : Role) (produced : Clause role) (bound : Clause role'),
      engine.converter? = Registry.standard.converter? →
      produced.typeName = some BasicType.string.name →
      bound.typeName = some BasicType.long.name →
      ThroughText x (engine.convert bound (.float x))
        (engine.convert produced (.float x) >>= engine.convert bound) :=
  ⟨BasicType.throughText x, fun _ _ _ _ _ known hproduced hbound =>
    throughText_of_standard known hproduced hbound x⟩

/-- The last double before 2^54 + 8 keeps its digits. -/
theorem longs_through_text_lastExact :
    let x : Binary64 := .ofBits 0x4350000000000001
    let total : Clause .output := ⟨"total", some "string", []⟩
    let limit : Clause .input := ⟨"limit", some "long", []⟩
    standard.convert limit (.float x) = .ok (.int 18014398509481988) ∧
      (standard.convert total (.float x) >>= standard.convert limit) =
        .ok (.int 18014398509481988) := by
  intro x total limit
  have hdirect : standard.convert limit (.float x) = .ok (.int 18014398509481988) := by
    decide +kernel
  have hthrough := (longs_through_text x).2 standard .output .input total limit rfl rfl rfl
  exact ⟨hdirect, hthrough.same _ hdirect (by decide)⟩

/-- The next double has a text that is another integer. The least integer has one that
    is below the range. -/
theorem longs_differ_through_text :
    (BasicType.long.convert (.float (.ofBits 0x4350000000000002)) =
        .ok (.int 18014398509481992) ∧
      (BasicType.string.convert (.float (.ofBits 0x4350000000000002)) >>=
        BasicType.long.convert) = .ok (.int 18014398509481990)) ∧
    BasicType.long.convert (.float longFloor) = .ok (.int Int64.minValue) ∧
      (BasicType.string.convert (.float longFloor) >>= BasicType.long.convert) =
        .error (.notInteger "-9223372036854776000" .long .tooSmall) := by
  decide +kernel

end Engine

end Decision
