import Decision.Conversion.Builtin
import Decision.Proofs.Binary64.Integer
import Decision.Proofs.Numeral.Integer
import Decision.Proofs.Outcome

/-!
# Converting to Integers

What the two integer types make of a value, over all values.

A value may denote an integer of any size: an integer denotes itself, a finite
double with nothing behind the point denotes the number it is exactly, and a
text denotes what its digits say. Nothing else denotes an integer. The long type
accepts the values whose integer has room in 64 bits and yields that integer, so
nothing is rounded, wrapped around, or stopped at an end of the range. The
integer type does what the long type does, for integers with room in 32 bits.

## Main definitions

* `Value.Denotes`: The integer that a value denotes.

## Theorems

* `toLong_eq_ok_iff`: The common conversion yields the integer that is denoted.
* `convert_integers`: The two integer types.
-/

namespace Decision

namespace Value

/-- A value denotes an integer, of whatever size. -/
inductive Denotes : Value → Int → Prop where
  | int (n : Int64) : Denotes (int n) n.toInt
  | float {x : Binary64} {k : Int} (hfinite : x.isFinite = true) (h : x.value = (k : ℚ)) :
      Denotes (float x) k
  | string {s : String} {k : Int} (h : Numeral.Denotes (Text.trim s.toList) k) :
      Denotes (string s) k

/-- The common conversion of the integer types yields the 64-bit integer that a
    value denotes, if there is one. -/
theorem toLong_eq_ok_iff (target : BasicType) (value : Value) (n : Int64) :
    value.toLong target = .ok n ↔ value.Denotes n.toInt := by
  cases value with
  | int m =>
      show Except.ok m = Except.ok n ↔ _
      rw [Except.ok.injEq]
      constructor
      · rintro rfl
        exact .int m
      · intro h
        generalize hk : n.toInt = k at h
        cases h
        exact (Int64.toInt_inj.mp hk).symm
  | float x =>
      rw [toLong]
      constructor
      · intro h
        split at h
        · next hlong =>
            rcases Binary64.hasLong_iff.mp hlong with ⟨hfinite, k, hk, hlow, hhigh⟩
            rw [← Except.ok.inj h, Binary64.toInt_toLong hfinite hk hlow hhigh]
            exact .float hfinite hk
        · exact absurd h nofun
      · intro h
        generalize hn : n.toInt = k at h
        cases h with
        | float hfinite hk =>
            -- The integer is one of 64 bits, so it is in range.
            have hlow : -2 ^ 63 ≤ k := hn ▸ n.le_toInt
            have hhigh : k < 2 ^ 63 := hn ▸ n.toInt_lt
            rw [if_pos (Binary64.hasLong_iff.mpr ⟨hfinite, k, hk, hlow, hhigh⟩),
              Except.ok.injEq, ← Int64.toInt_inj, hn]
            exact Binary64.toInt_toLong hfinite hk hlow hhigh
  | string s =>
      rw [toLong, mapError_eq_ok_iff, Numeral.readInteger_eq_ok_iff]
      exact ⟨.string, fun h => by cases h with | string h => exact h⟩
  | null => exact iff_of_false nofun nofun
  | bool b => exact iff_of_false nofun nofun
  | list items => exact iff_of_false nofun nofun
  | map keys item => exact iff_of_false nofun nofun

end Value

/-- An integer has room in 32 bits. -/
theorem fitsInteger_iff {n : Int64} :
    fitsInteger n = true ↔ -2 ^ 31 ≤ n.toInt ∧ n.toInt < 2 ^ 31 := by
  have hmin : Int32.minValue.toInt = -2 ^ 31 := rfl
  have hmax : Int32.maxValue.toInt = 2 ^ 31 - 1 := rfl
  rw [fitsInteger, decide_eq_true_iff]
  omega

namespace BasicType

theorem long_eq_ok_iff {value result : Value} :
    long.convert value = .ok result ↔
      ∃ n, value.toLong .long = .ok n ∧ result = .int n := by
  show (value.toLong .long >>= fun n => Except.ok (Value.int n)) = .ok result ↔ _
  rw [bind_eq_ok_iff]
  refine exists_congr fun n => and_congr_right fun _ => ?_
  rw [Except.ok.injEq, eq_comm]

theorem integer_eq_ok_iff {value result : Value} :
    integer.convert value = .ok result ↔
      ∃ n, value.toLong .integer = .ok n ∧ fitsInteger n = true ∧ result = .int n := by
  show (value.toLong .integer >>= fun n =>
    if fitsInteger n then Except.ok (Value.int n) else .error (ConversionError.outOfRange n)) =
      .ok result ↔ _
  rw [bind_eq_ok_iff]
  refine exists_congr fun n => and_congr_right fun _ => ?_
  by_cases hfits : fitsInteger n = true
  · rw [if_pos hfits, Except.ok.injEq]
    exact ⟨fun h => ⟨hfits, h.symm⟩, fun h => h.2.symm⟩
  · rw [if_neg hfits]
    exact iff_of_false nofun fun h => hfits h.1

/-- The long type accepts exactly the values that denote an integer of 64 bits and
    yields it. The integer type accepts those of 32 bits, with the same result. -/
theorem convert_integers (value : Value) :
    (∀ result, long.convert value = .ok result ↔
      ∃ n : Int64, result = .int n ∧ value.Denotes n.toInt) ∧
    ((∃ result, long.convert value = .ok result) ↔
      ∃ k : Int, value.Denotes k ∧ -2 ^ 63 ≤ k ∧ k < 2 ^ 63) ∧
    (∀ result, integer.convert value = .ok result ↔
      long.convert value = .ok result ∧
        ∃ n : Int64, result = .int n ∧ -2 ^ 31 ≤ n.toInt ∧ n.toInt < 2 ^ 31) := by
  have hlong : ∀ result, long.convert value = .ok result ↔
      ∃ n : Int64, result = .int n ∧ value.Denotes n.toInt := by
    intro result
    rw [long_eq_ok_iff]
    exact exists_congr fun n => by rw [Value.toLong_eq_ok_iff, and_comm]
  refine ⟨hlong, ?_, ?_⟩
  · constructor
    · rintro ⟨result, hresult⟩
      rcases (hlong result).mp hresult with ⟨n, _, hn⟩
      exact ⟨n.toInt, hn, n.le_toInt, n.toInt_lt⟩
    · rintro ⟨k, hk, hlow, hhigh⟩
      refine ⟨.int (Int64.ofInt k), (hlong _).mpr ⟨Int64.ofInt k, rfl, ?_⟩⟩
      rw [Int64.toInt_ofInt_of_le hlow hhigh]
      exact hk
  · intro result
    rw [hlong, integer_eq_ok_iff]
    constructor
    · rintro ⟨n, hn, hfits, hresult⟩
      exact ⟨⟨n, hresult, (Value.toLong_eq_ok_iff .integer value n).mp hn⟩, n, hresult,
        fitsInteger_iff.mp hfits⟩
    · rintro ⟨⟨n, rfl, hn⟩, m, hm, hrange⟩
      rw [← Value.int.inj hm] at hrange
      exact ⟨n, (Value.toLong_eq_ok_iff .integer value n).mpr hn, fitsInteger_iff.mpr hrange, rfl⟩

/-- Both zeros are the integer 0. -/
example : long.convert (.float (.zero true)) = .ok (.int 0) := by decide +kernel

/-- The greatest double in range, and the one after it, which the greatest integer
    is rounded to. -/
example : long.convert (.float (.ofBits 0x43DFFFFFFFFFFFFF)) = .ok (.int 9223372036854774784) ∧
    long.convert (.float (.ofBits 0x43E0000000000000)) =
      .error (.unsupported (.float (.ofBits 0x43E0000000000000)) .long) := by decide +kernel

end BasicType

end Decision
