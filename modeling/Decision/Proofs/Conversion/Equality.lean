import Decision.Conversion.Registry
import Decision.Proofs.Value.Equality

/-!
# Converting Equal Values

What equal values have in common after a conversion.

A basic type either refuses both of two equal values or accepts both. Values with
parts are refused by all of them, so the only equal values that a converter can
tell apart are the two zeros. To the boolean type they are refused alike, to the
integer types they are the integer 0, and under the double type they stay equal.
Only text shows the sign of a zero: the string type makes `0` of one and `-0` of
the other, and those are different texts.

## Main definitions

* `Value.ZeroTexts`: The texts of the two zeros.
* `Value.AgreeUnder`: What equal values are converted to.

## Theorems

* `BasicType.convert_akin`: A basic type accepts both of two equal values or
  neither.
* `Registry.exists_basic_of_standard`: The standard registry knows nothing but the
  basic types.
-/

namespace Decision

namespace Binary64

theorem beq_zero (s t : Bool) : (zero s == zero t) = true := by
  cases s <;> cases t <;> decide +kernel

theorem hasLong_zero (s : Bool) : (zero s).hasLong = true := by
  cases s <;> decide +kernel

theorem toLong_zero (s : Bool) : (zero s).toLong = 0 := by
  cases s <;> decide +kernel

end Binary64

namespace Value

/-- Two texts that two zeros of different sign have. -/
def ZeroTexts (a b : Value) : Prop :=
  (a = string "0" ∧ b = string "-0") ∨ (a = string "-0" ∧ b = string "0")

/-- How two values compare that equal values are converted to: they are the same
    or equal again, or the texts of two zeros if the type is that of texts. -/
def AgreeUnder (typeName : Option String) (a b : Value) : Prop :=
  a = b ∨ (a == b) = true ∨ (typeName = some BasicType.string.name ∧ ZeroTexts a b)

theorem text_zero (s : Bool) : (float (.zero s)).text = if s then "-0" else "0" := by
  cases s <;> decide +kernel

/-- To the integer types both zeros are the integer 0. -/
theorem toLong_zero (target : BasicType) (s : Bool) :
    (float (.zero s)).toLong target = .ok 0 := by
  rw [toLong, if_pos (Binary64.hasLong_zero s), Binary64.toLong_zero]

end Value

namespace BasicType

open Value

theorem toStringValue_zero (s : Bool) :
    toStringValue (float (.zero s)) = .ok (.string (if s then "-0" else "0")) := by
  rw [toStringValue, text_zero]

/-- A basic type that accepts one of two equal values accepts the other, and the
    results agree. -/
theorem convert_akin (type : BasicType) {a b value : Value} (h : Akin a b)
    (hvalue : type.convert a = .ok value) :
    ∃ other, type.convert b = .ok other ∧ AgreeUnder (some type.name) value other := by
  cases h with
  | same => exact ⟨value, hvalue, Or.inl rfl⟩
  | lists as bs =>
      -- No type accepts a list.
      cases type <;> exact absurd hvalue nofun
  | maps keys keys' item item' => cases type <;> exact absurd hvalue nofun
  | zeros s t =>
      cases type with
      | boolean => exact absurd hvalue nofun
      | string =>
          rw [convert, toStringValue_zero] at hvalue
          refine ⟨.string (if t then "-0" else "0"), toStringValue_zero t, ?_⟩
          rw [← Except.ok.inj hvalue]
          -- Two signs have two texts, and one sign has one.
          cases s <;> cases t
          · exact Or.inl rfl
          · exact Or.inr (Or.inr ⟨rfl, Or.inl ⟨rfl, rfl⟩⟩)
          · exact Or.inr (Or.inr ⟨rfl, Or.inr ⟨rfl, rfl⟩⟩)
          · exact Or.inl rfl
      | integer =>
          refine ⟨value, ?_, Or.inl rfl⟩
          rw [convert, toInteger, toLong_zero] at hvalue ⊢
          exact hvalue
      | long =>
          refine ⟨value, ?_, Or.inl rfl⟩
          rw [convert, toLong, toLong_zero] at hvalue ⊢
          exact hvalue
      | double =>
          refine ⟨.float (.zero t), rfl, Or.inr (Or.inl ?_)⟩
          rw [← Except.ok.inj hvalue]
          exact Binary64.beq_zero s t

end BasicType

namespace Registry

/-- What a registry knows after some basic types were given their names is one of
    them, or was known before. -/
theorem converter?_foldl {types : List BasicType} {registry : Registry} {name : String}
    {converter : Converter}
    (h : (types.foldl registerBasic registry).converter? name = some converter) :
    (∃ type ∈ types, type.name = name ∧ type.convert = converter) ∨
      registry.converter? name = some converter := by
  induction types generalizing registry with
  | nil => exact Or.inr h
  | cons type types ih =>
      rcases ih h with ⟨other, hother, hname⟩ | hbefore
      · exact Or.inl ⟨other, List.mem_cons_of_mem type hother, hname⟩
      · -- The first type has the name, or the name was known before it.
        rw [registerBasic, register, converter?, Std.ExtTreeMap.getElem?_insert] at hbefore
        split at hbefore
        · next heq =>
            exact Or.inl ⟨type, List.mem_cons_self, Std.LawfulEqCmp.eq_of_compare heq,
              Option.some.inj hbefore⟩
        · exact Or.inr hbefore

/-- The standard registry knows nothing but the basic types. -/
theorem exists_basic_of_standard {name : String} {converter : Converter}
    (h : standard.converter? name = some converter) :
    ∃ type : BasicType, type.name = name ∧ type.convert = converter := by
  rcases converter?_foldl h with ⟨type, _, hname⟩ | hempty
  · exact ⟨type, hname⟩
  · rw [converter?, empty, Std.ExtTreeMap.getElem?_empty] at hempty
    exact absurd hempty nofun

end Registry

end Decision
