import Decision.Proofs.Binary64.Exact
import Decision.Proofs.Condition.Composition
import Decision.Proofs.Value.Comparison
import Decision.Proofs.Value.Equality

/-!
# Integers Against Doubles

How far the comparison of an integer and a double can be trusted.

The integer is rounded to the nearest double first, and the two doubles are then
compared as the exact numbers that they are. So all five relations have an answer,
infinities included, and nothing depends on which of the two stands on the left.

The answers are those for the integer itself unless it is rounded to the very double
it is compared with. Then, and only then, the two count as equal although they are
not. It takes an integer above 2^53 in size, since all others are doubles themselves.

A double can therefore equal two integers that differ, which are then both rounded to
it. This is the one way in which equality fails to be transitive, on any values.

## Main definitions

* `Relation.Holds`: A relation between members of an order.
* `Value.RoundedComparison`: How an integer and a double are compared.

## Theorems

* `Relation.holds_congr`: What is less and what is greater decides all relations.
* `Value.roundedComparison`: How any integer and any double that is not NaN are compared.
* `Value.sameAs?_trans`: Where equality is transitive.
* `Value.mixed_comparisons`: Both together.
-/

namespace Decision

/-! ## Relations between members of an order -/

section

variable {α β : Type} [LinearOrder α] [LinearOrder β]

/-- Whether a relation holds between two members of an order. -/
def Relation.Holds (relation : Relation) (a b : α) : Prop :=
  match relation with
  | .equal => a = b
  | .above => b < a
  | .atLeast => b ≤ a
  | .below => a < b
  | .atMost => a ≤ b

instance (relation : Relation) (a b : α) : Decidable (relation.Holds a b) :=
  match relation with
  | .equal => inferInstanceAs (Decidable (a = b))
  | .above => inferInstanceAs (Decidable (b < a))
  | .atLeast => inferInstanceAs (Decidable (b ≤ a))
  | .below => inferInstanceAs (Decidable (a < b))
  | .atMost => inferInstanceAs (Decidable (a ≤ b))

/-- What is less and what is greater decides all relations. -/
theorem Relation.holds_congr {a b : α} {a' b' : β} (hlt : a < b ↔ a' < b')
    (hgt : b < a ↔ b' < a') (relation : Relation) : relation.Holds a b ↔ relation.Holds a' b' := by
  have hle : a ≤ b ↔ a' ≤ b' := not_lt.symm.trans ((not_congr hgt).trans not_lt)
  have hge : b ≤ a ↔ b' ≤ a' := not_lt.symm.trans ((not_congr hlt).trans not_lt)
  cases relation with
  | equal => exact le_antisymm_iff.trans ((and_congr hle hge).trans le_antisymm_iff.symm)
  | above => exact hgt
  | atLeast => exact hge
  | below => exact hlt
  | atMost => exact hle

/-- Suppose that two pairs are in the same order unless the first one has equal members.
    Then they are in the same relations if and only if the second one has equal members
    whenever the first has. -/
theorem Relation.forall_holds_iff {a b : α} {a' b' : β}
    (h : a ≠ b → (a < b ↔ a' < b') ∧ (b < a ↔ b' < a')) :
    (∀ relation : Relation, relation.Holds a b ↔ relation.Holds a' b') ↔ (a = b → a' = b') := by
  constructor
  · exact fun hall => (hall .equal).mp
  · intro hequal relation
    by_cases heq : a = b
    · have heq' := hequal heq
      exact holds_congr (iff_of_false heq.not_lt heq'.not_lt) (iff_of_false heq.not_gt heq'.not_gt)
        relation
    · exact holds_congr (h heq).1 (h heq).2 relation

theorem Relation.holdsFor_compare (relation : Relation) (a b : α) :
    relation.holdsFor (compare a b) = decide (relation.Holds a b) := by
  rw [Bool.eq_iff_iff, decide_eq_true_iff]
  cases relation with
  | equal => exact beq_iff_eq.trans compare_eq_iff_eq
  | above => exact beq_iff_eq.trans compare_gt_iff_gt
  | atLeast => exact bne_iff_ne.trans compare_ge_iff_ge
  | below => exact beq_iff_eq.trans compare_lt_iff_lt
  | atMost => exact bne_iff_ne.trans compare_le_iff_le

end

namespace Binary64

/-- Two doubles that are not NaN are compared as exact numbers. -/
theorem compare?_map_holdsFor {x y : Binary64} (hx : x.isNaN = false) (hy : y.isNaN = false)
    (relation : Relation) :
    (x.compare? y).map relation.holdsFor = some (decide (relation.Holds x.exact y.exact)) := by
  have hholds := Relation.holds_congr (exact_lt_iff hx hy) (exact_lt_iff hy hx) relation
  unfold compare?
  rw [hx, hy, if_neg (by decide), Option.map_some, Relation.holdsFor_compare,
    decide_eq_decide.mpr hholds]

end Binary64

/-- A condition of one comparison is met if the comparison is answered with yes. -/
theorem Evaluator.condition_of_resolve {text : String} {relation : Relation} {operand : Operand}
    {context : Context} {bound : Value}
    (hparse : Condition.parse? text = some (.anyOf [.compare relation operand]))
    (hresolve : operand.resolve context.get? = .ok bound) (value : Value) :
    simple.condition ⟨text, none⟩ value context =
      .ok ((value.compare relation bound).getD false) := by
  have htest : (Test.compare relation operand).holds context.get? value =
      .ok ((value.compare relation bound).getD false) := by
    simp only [Test.holds, hresolve]
    rfl
  rw [condition_of_parse? hparse]
  simp only [Condition.holds, Test.anyHolds, htest]
  cases (value.compare relation bound).getD false <;> rfl

namespace Value

variable {a b c : Value}

/-! ## An integer and a double -/

theorem natAbs_toInt_le (n : Int64) : n.toInt.natAbs ≤ 2 ^ 63 := by
  have hlow : -2 ^ 63 ≤ n.toInt := n.le_toInt
  have hhigh : n.toInt < 2 ^ 63 := n.toInt_lt
  omega

theorem compare_int_float (n : Int64) {x : Binary64} (h : x.isNaN = false) (relation : Relation) :
    (int n).compare relation (float x) =
      some (decide (relation.Holds (Binary64.ofInt n.toInt).exact x.exact)) := by
  rw [← Binary64.compare?_map_holdsFor (Binary64.isNaN_ofInt _) h]
  cases relation <;> rfl

theorem compare_float_int (n : Int64) {x : Binary64} (h : x.isNaN = false) (relation : Relation) :
    (float x).compare relation (int n) =
      some (decide (relation.Holds x.exact (Binary64.ofInt n.toInt).exact)) := by
  rw [← Binary64.compare?_map_holdsFor h (Binary64.isNaN_ofInt _)]
  cases relation <;> rfl

/-- How an integer and a double that is not NaN are compared. -/
structure RoundedComparison (n : Int64) (x : Binary64) : Prop where
  /-- What the integer is rounded to is the nearest double. -/
  nearest : (Binary64.ofInt n.toInt).IsNearest n.toInt
  int_float : ∀ relation, (int n).compare relation (float x) =
    some (decide (relation.Holds (Binary64.ofInt n.toInt).exact x.exact))
  float_int : ∀ relation, (float x).compare relation (int n) =
    some (decide (relation.Holds x.exact (Binary64.ofInt n.toInt).exact))
  /-- The answers are those for the integer itself, unless it is rounded to the double
      and is not the same number. -/
  int_float_exact_iff : (∀ relation, (int n).compare relation (float x) =
      some (decide (relation.Holds ((n.toInt : ℚ) : WithBotTop ℚ) x.exact))) ↔
    ((Binary64.ofInt n.toInt).exact = x.exact → ((n.toInt : ℚ) : WithBotTop ℚ) = x.exact)
  float_int_exact_iff : (∀ relation, (float x).compare relation (int n) =
      some (decide (relation.Holds x.exact ((n.toInt : ℚ) : WithBotTop ℚ)))) ↔
    (x.exact = (Binary64.ofInt n.toInt).exact → x.exact = ((n.toInt : ℚ) : WithBotTop ℚ))
  /-- Integers within 2^53 are not rounded. -/
  exact_of_le : n.toInt.natAbs ≤ 2 ^ 53 →
    (Binary64.ofInt n.toInt).exact = ((n.toInt : ℚ) : WithBotTop ℚ)
  /-- A condition that asks for the double is met by the integers rounded to it. -/
  condition : ∀ (text : String) (operand : Operand) (context : Context),
    Condition.parse? text = some (.anyOf [.compare .equal operand]) →
    operand.resolve context.get? = .ok (float x) →
    Evaluator.simple.condition ⟨text, none⟩ (int n) context =
      .ok (decide ((Binary64.ofInt n.toInt).exact = x.exact))

/-- An integer is compared with a double as the double that is nearest to it. -/
theorem roundedComparison (n : Int64) {x : Binary64} (h : x.isNaN = false) :
    RoundedComparison n x := by
  have hfinite := Binary64.isFinite_ofInt (natAbs_toInt_le n)
  have hsides := Binary64.ofInt_sides hfinite h
  exact
    { nearest := Binary64.isNearest_ofInt hfinite
      int_float := compare_int_float n h
      float_int := compare_float_int n h
      int_float_exact_iff := by
        simp only [compare_int_float n h, Option.some.injEq, decide_eq_decide]
        exact Relation.forall_holds_iff hsides
      float_int_exact_iff := by
        simp only [compare_float_int n h, Option.some.injEq, decide_eq_decide]
        exact Relation.forall_holds_iff fun hne => (hsides hne.symm).symm
      exact_of_le := Binary64.exact_ofInt
      condition := by
        intro text operand context hparse hresolve
        rw [Evaluator.condition_of_resolve hparse hresolve, compare_int_float n h,
          Option.getD_some]
        exact congrArg Except.ok (decide_eq_decide.mpr Iff.rfl) }

/-! ## Equality through a third value -/

/-- What is equal to a number is a number. -/
theorem exists_asDouble?_iff (h : a.sameAs? b = some true) :
    (∃ x, a.asDouble? = some x) ↔ ∃ y, b.asDouble? = some y := by
  have hnone : ∀ c : Value, c.asDouble? = none → ¬ ∃ x, c.asDouble? = some x := by
    rintro c hc ⟨x, hx⟩
    rw [hc] at hx
    exact absurd hx nofun
  cases a with
  | int m =>
      cases b with
      | int n => exact iff_of_true ⟨_, rfl⟩ ⟨_, rfl⟩
      | float y => exact iff_of_true ⟨_, rfl⟩ ⟨_, rfl⟩
      | _ => exact absurd h nofun
  | float x =>
      cases b with
      | int n => exact iff_of_true ⟨_, rfl⟩ ⟨_, rfl⟩
      | float y => exact iff_of_true ⟨_, rfl⟩ ⟨_, rfl⟩
      | _ => exact absurd h nofun
  | _ =>
      cases b with
      | int n => exact absurd h nofun
      | float y => exact absurd h nofun
      | _ => exact iff_of_false (hnone _ rfl) (hnone _ rfl)

/-- Numbers that are not both integers are equal if they are equal as doubles. -/
theorem sameAs?_iff_beq {x y : Binary64} (hx : a.asDouble? = some x) (hy : b.asDouble? = some y)
    (h : ¬ ∃ m n, a = int m ∧ b = int n) : a.sameAs? b = some true ↔ (x == y) = true := by
  have horder : ∀ u v : Binary64, (u.compare? v).map (· == .eq) = some true ↔ (u == v) = true := by
    intro u v
    rw [map_eq_iff]
    exact beq_iff_eq.symm
  cases a with
  | int m =>
      cases b with
      | int n => exact absurd ⟨m, n, rfl, rfl⟩ h
      | float v =>
          cases hx
          cases hy
          exact horder _ _
      | _ => exact absurd hy nofun
  | float u =>
      cases hx
      cases b with
      | int n =>
          cases hy
          exact horder _ _
      | float v =>
          cases hy
          exact horder _ _
      | _ => exact absurd hy nofun
  | _ => exact absurd hx nofun

theorem int_sameAs?_iff {m n : Int64} : (int m).sameAs? (int n) = some true ↔ m = n := by
  rw [sameAs?_eq_true_iff (by rintro ⟨⟩)]
  show (m == n) = true ↔ m = n
  exact beq_iff_eq

/-- Numbers that count as equal are equal as doubles. -/
theorem beq_of_sameAs? {x y : Binary64} (hx : a.asDouble? = some x) (hy : b.asDouble? = some y)
    (h : a.sameAs? b = some true) : (x == y) = true := by
  by_cases hints : ∃ m n, a = int m ∧ b = int n
  · rcases hints with ⟨m, n, rfl, rfl⟩
    rw [int_sameAs?_iff] at h
    rw [← Option.some.inj hx, ← Option.some.inj hy, h, Binary64.beq_iff]
    exact ⟨⟨Binary64.isNaN_ofInt _, Binary64.isNaN_ofInt _⟩, rfl⟩
  · exact (sameAs?_iff_beq hx hy hints).mp h

/-- Equality is transitive, unless it leads from an integer to another one by way of a
    double. -/
theorem sameAs?_trans (hab : a.sameAs? b = some true) (hbc : b.sameAs? c = some true) :
    a.sameAs? c = some true ∨ ∃ m n x, m ≠ n ∧ a = int m ∧ b = float x ∧ c = int n := by
  by_cases hmixed : a.Mixed b ∨ b.Mixed c
  · -- A mixed step makes all three values numbers, and these have doubles.
    have hnumber : ∃ y, b.asDouble? = some y := by
      rcases hmixed with (_ | _) | (_ | _) <;> exact ⟨_, rfl⟩
    rcases (exists_asDouble?_iff hab).mpr hnumber with ⟨x, hx⟩
    rcases (exists_asDouble?_iff hbc).mp hnumber with ⟨z, hz⟩
    rcases hnumber with ⟨y, hy⟩
    by_cases hints : ∃ m n, a = int m ∧ c = int n
    · rcases hints with ⟨m, n, rfl, rfl⟩
      by_cases heq : m = n
      · exact .inl (int_sameAs?_iff.mpr heq)
      · -- Of a mixed step next to an integer the other side is a double.
        right
        rcases hmixed with (_ | _) | (_ | _)
        · exact ⟨m, n, _, heq, rfl, rfl, rfl⟩
        · exact ⟨m, n, _, heq, rfl, rfl, rfl⟩
    · left
      rw [sameAs?_iff_beq hx hz hints]
      exact Binary64.beq_trans (beq_of_sameAs? hx hy hab) (beq_of_sameAs? hy hz hbc)
  · -- Without a change of kind equality is strict.
    rw [not_or] at hmixed
    rw [sameAs?_eq_true_iff hmixed.1] at hab
    rw [sameAs?_eq_true_iff hmixed.2] at hbc
    have hac : (a == c) = true := PartialEquivBEq.trans hab hbc
    exact .inl ((sameAs?_eq_true_iff (not_mixed_of_beq hac)).mpr hac)

/-- Integers and doubles are compared as exact numbers, except for an integer that is
    rounded to the double. Equality is transitive, except through such a double. -/
theorem mixed_comparisons :
    (∀ (n : Int64) (x : Binary64), x.isNaN = false → RoundedComparison n x) ∧
      ∀ a b c : Value, a.compare .equal b = some true → b.compare .equal c = some true →
        a.compare .equal c = some true ∨ ∃ m n x, m ≠ n ∧ a = int m ∧ b = float x ∧ c = int n :=
  ⟨fun n _ h => roundedComparison n h, fun _ _ _ => sameAs?_trans⟩

/-- The first integer that is rounded. It is below the next double as an exact number,
    so it is below it when the two are compared, although it is rounded down. Equality
    leads back from an integer to the double that it came from. -/
theorem mixed_comparisons_beyondLimit :
    let n : Int64 := 9007199254740993
    let x := Binary64.ofBits 0x4340000000000001
    x.isNaN = false ∧ ((n.toInt : ℚ) : WithBotTop ℚ) < x.exact ∧
      (int n).compare .below (float x) = some true ∧
      (float x).compare .above (int n) = some true ∧
      (float (.zero true)).compare .equal (int 0) = some true ∧
      (int 0).compare .equal (float (.zero false)) = some true ∧
      (float (.zero true)).compare .equal (float (.zero false)) = some true := by
  intro n x
  have hnan : x.isNaN = false := by decide
  have hlt : ((n.toInt : ℚ) : WithBotTop ℚ) < x.exact := by decide +kernel
  have hne : (Binary64.ofInt n.toInt).exact ≠ x.exact := by decide +kernel
  have hin : (float (.zero true)).compare .equal (int 0) = some true := by decide +kernel
  have hout : (int 0).compare .equal (float (.zero false)) = some true := by decide +kernel
  rcases mixed_comparisons with ⟨hrounded, htrans⟩
  have hbelow := (hrounded n x hnan).int_float_exact_iff.mpr (fun heq => absurd heq hne) .below
  have habove := (hrounded n x hnan).float_int_exact_iff.mpr (fun heq => absurd heq.symm hne) .above
  rw [decide_eq_true (show Relation.below.Holds _ _ from hlt)] at hbelow
  rw [decide_eq_true (show Relation.above.Holds _ _ from hlt)] at habove
  refine ⟨hnan, hlt, hbelow, habove, hin, hout, ?_⟩
  rcases htrans _ _ _ hin hout with h | ⟨m, k, y, -, h, -⟩
  · exact h
  · exact absurd h nofun

/-- Two integers that differ equal one double, and only one of them is the number that
    the double is. A condition that asks for the double is met by both. -/
theorem not_exact_equalIntegers :
    let m : Int64 := 9007199254740992
    let n : Int64 := 9007199254740993
    let x := Binary64.ofBits 0x4340000000000000
    x.isNaN = false ∧
      (int n).compare .equal (float x) ≠
        some (decide (Relation.equal.Holds ((n.toInt : ℚ) : WithBotTop ℚ) x.exact)) ∧
      (int n).compare .above (float x) ≠
        some (decide (Relation.above.Holds ((n.toInt : ℚ) : WithBotTop ℚ) x.exact)) ∧
      ((int m).compare .equal (float x) = some true ∧
        (float x).compare .equal (int n) = some true ∧
        (int m).compare .equal (int n) = some false) ∧
      Evaluator.simple.condition ⟨"9007199254740992.0", none⟩ (int m) ⟨∅, ∅⟩ = .ok true ∧
      Evaluator.simple.condition ⟨"9007199254740992.0", none⟩ (int n) ⟨∅, ∅⟩ = .ok true := by
  decide +kernel

end Value

end Decision
