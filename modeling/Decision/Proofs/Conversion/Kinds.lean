import Decision.Proofs.Conversion.Equality
import Decision.Proofs.Conversion.Integers

/-!
# The Kinds of Converted Values

What a value is after it was brought under a basic type.

A basic type stands for one kind of values, with a range in the case of the
narrower integers. Its converter yields values of that kind and nothing else,
and leaves them alone when it meets them again. So converting twice is
converting once, although the two kinds of integers share their values and
texts and doubles are read as numbers on the way.

A null is not converted and nothing is converted to it, and a value with parts
is refused by every basic type, with the value itself in the error.

## Main definitions

* `BasicType.Has`: A value is of the kind of a type.
* `BasicType.Brings`: What a value is under a clause with that type.
* `Value.HasParts`: A list or a map.

## Theorems

* `has_of_convert`: A converted value is of the kind of the type.
* `convert_of_has`: Such a value is not changed.
* `convert_of_hasParts`: Lists and maps are refused.
-/

namespace Decision

/-- A value is null exactly if it is tested to be. -/
theorem Value.isNull_iff {value : Value} : value.isNull = true ↔ value = .null := by
  cases value with
  | null => exact iff_of_true rfl rfl
  | _ => exact iff_of_false Bool.false_ne_true nofun

/-- A value that consists of other values. -/
def Value.HasParts : Value → Prop
  | .list _ | .map _ _ => True
  | _ => False

namespace BasicType

/-- A value is of the kind that a basic type stands for. -/
inductive Has : BasicType → Value → Prop where
  | string (s : String) : Has string (.string s)
  | boolean (b : Bool) : Has boolean (.bool b)
  | integer {n : Int64} (hlow : -2 ^ 31 ≤ n.toInt) (hhigh : n.toInt < 2 ^ 31) :
      Has integer (.int n)
  | long (n : Int64) : Has long (.int n)
  | double (x : Binary64) : Has double (.float x)

/-- What a value is under a clause that declares a basic type: null if it was null
    before, and otherwise what the converter makes of it, which is of the kind of the
    type and would not be changed again. -/
structure Brings (type : BasicType) (raw value : Value) : Prop where
  null_iff : value = .null ↔ raw = .null
  has : value ≠ .null → type.Has value
  convert_raw : value ≠ .null → type.convert raw = .ok value
  convert_again : value ≠ .null → type.convert value = .ok value

theorem name_inj {a b : BasicType} (h : a.name = b.name) : a = b := by
  cases a <;> cases b <;> first | rfl | exact absurd h (by decide)

theorem ne_null_of_has {type : BasicType} {value : Value} (h : type.Has value) :
    value ≠ .null := by
  cases h <;> exact nofun

variable {raw value : Value}

theorem has_of_toStringValue (h : toStringValue raw = .ok value) : string.Has value := by
  cases raw with
  | string s =>
      rw [← Except.ok.inj h]
      exact .string s
  | bool b =>
      rw [← Except.ok.inj h]
      exact .string _
  | int n =>
      rw [← Except.ok.inj h]
      exact .string _
  | float x =>
      rw [← Except.ok.inj h]
      exact .string _
  | _ => exact absurd h nofun

theorem has_of_toBoolean (h : toBoolean raw = .ok value) : boolean.Has value := by
  unfold toBoolean at h
  split at h
  · rw [← Except.ok.inj h]
    exact .boolean _
  · rw [← Except.ok.inj h]
    exact .boolean true
  · rw [← Except.ok.inj h]
    exact .boolean false
  · exact absurd h nofun

theorem has_of_toDouble (h : toDouble raw = .ok value) : double.Has value := by
  cases raw with
  | float x =>
      rw [← Except.ok.inj h]
      exact .double x
  | int n =>
      rw [← Except.ok.inj h]
      exact .double _
  | string s =>
      rcases exists_of_bind_eq_ok h with ⟨x, _, hx⟩
      rw [← Except.ok.inj hx]
      exact .double x
  | _ => exact absurd h nofun

/-- A converter yields values of the kind of its type. -/
theorem has_of_convert {type : BasicType} (h : type.convert raw = .ok value) :
    type.Has value := by
  cases type with
  | string => exact has_of_toStringValue h
  | boolean => exact has_of_toBoolean h
  | integer =>
      rcases integer_eq_ok_iff.mp h with ⟨n, _, hfits, rfl⟩
      rcases fitsInteger_iff.mp hfits with ⟨hlow, hhigh⟩
      exact .integer hlow hhigh
  | long =>
      rcases long_eq_ok_iff.mp h with ⟨n, _, rfl⟩
      exact .long n
  | double => exact has_of_toDouble h

/-- A converter leaves the values of its type alone. -/
theorem convert_of_has {type : BasicType} (h : type.Has value) :
    type.convert value = .ok value := by
  cases h with
  | string s => rfl
  | boolean b => rfl
  | integer hlow hhigh =>
      exact integer_eq_ok_iff.mpr ⟨_, rfl, fitsInteger_iff.mpr ⟨hlow, hhigh⟩, rfl⟩
  | long n => rfl
  | double x => rfl

/-- No basic type accepts a value with parts. -/
theorem convert_of_hasParts (type : BasicType) (h : value.HasParts) :
    type.convert value = .error (.unsupported value type) := by
  cases value with
  | list items => cases type <;> rfl
  | map keys item => cases type <;> rfl
  | _ => exact absurd h id

theorem brings_null (type : BasicType) : type.Brings .null .null where
  null_iff := Iff.rfl
  has := fun h => absurd rfl h
  convert_raw := fun h => absurd rfl h
  convert_again := fun h => absurd rfl h

theorem brings_of_convert {type : BasicType} (hraw : raw ≠ .null)
    (h : type.convert raw = .ok value) : type.Brings raw value where
  null_iff := iff_of_false (ne_null_of_has (has_of_convert h)) hraw
  has := fun _ => has_of_convert h
  convert_raw := fun _ => h
  convert_again := fun _ => convert_of_has (has_of_convert h)

end BasicType

/-- The standard registry knows a basic type by its name. -/
theorem Registry.converter?_standard (type : BasicType) :
    standard.converter? type.name = some type.convert := by
  have hknown : (standard.converter? type.name).isSome = true := by
    cases type <;> rfl
  rcases Option.isSome_iff_exists.mp hknown with ⟨converter, hconverter⟩
  rcases exists_basic_of_standard hconverter with ⟨other, hname, hconvert⟩
  rw [hconverter, ← hconvert, BasicType.name_inj hname]

end Decision
