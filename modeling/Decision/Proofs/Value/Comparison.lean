import Decision.Proofs.Binary64.Rounding
import Decision.Proofs.Value.Equality
import Decision.Value.Compare

/-!
# The Order of Values

What the five relations between values have to do with each other.

Two values have an order if they are two texts or two numbers that are not NaN.
Then all five relations are answered, and by one and the same order, so the answers
fit together: of less, equal and greater exactly one is a yes. Without an order the
four relations that ask for one have no answer. Equality may still have one, since
it is also defined between values that have no order.

The order of numbers has two sources. Two integers are compared as integers and all
other pairs as doubles, and a chain that goes through an integer can change from one
to the other. `IsBelow` keeps the two apart. What joins them is that rounding does not
turn integers around: if the double of an integer is less than the double of
another, so is the integer, and a lesser integer has no greater double. So a chain
with a strict step between doubles anywhere is strict from end to end, and a chain
without one consists of integers.

Nothing like that holds for equality, where a double may equal several integers.

## Main definitions

* `Relation.mirror`: A relation the other way around.
* `Value.Ordered`: Two values that have an order.
* `Value.IsBelow`: One value is less than another.
* `Value.Mixed`: An integer and a double.
* `Value.Coherent`: How the relations between three values fit together.

## Theorems

* `Value.compare_mirror`: Comparing the other way around.
* `Value.isSome_order?_iff`: Which values have an order.
* `Value.isBelow_trans`: To be below is transitive.
* `Value.sameAs?_eq_true_iff`: Equal values of one kind are equal in the strict sense.
* `Value.compare_coherent`: The relations fit together.
-/

namespace Decision

/-! ## Relations and orders -/

/-- The relation that holds the other way around. -/
def Relation.mirror : Relation → Relation
  | .equal => .equal
  | .above => .below
  | .atLeast => .atMost
  | .below => .above
  | .atMost => .atLeast

theorem Relation.holdsFor_swap (relation : Relation) (order : Ordering) :
    relation.holdsFor order.swap = relation.mirror.holdsFor order := by
  cases relation <;> cases order <;> rfl

/-- The three relations of which one holds wherever there is an order. -/
def Relation.strict : List Relation := [.below, .equal, .above]

theorem Relation.exists_strict (order : Ordering) :
    ∃ relation ∈ strict, ∀ other ∈ strict, other.holdsFor order = decide (other = relation) := by
  cases order with
  | lt => exact ⟨.below, by decide, by decide⟩
  | eq => exact ⟨.equal, by decide, by decide⟩
  | gt => exact ⟨.above, by decide, by decide⟩

namespace Value

/-! ## Pairs of values -/

/-- A number that is not NaN. -/
inductive IsNumber : Value → Prop where
  | long (n : Int64) : IsNumber (int n)
  | double {x : Binary64} (h : x.isNaN = false) : IsNumber (float x)

/-- Two values that have an order: two texts, or two numbers that are not NaN. -/
inductive Ordered : Value → Value → Prop where
  | texts (s t : String) : Ordered (string s) (string t)
  | numbers {a b : Value} (ha : a.IsNumber) (hb : b.IsNumber) : Ordered a b

/-- One value is an integer and the other a double. -/
inductive Mixed : Value → Value → Prop where
  | longDouble (n : Int64) (x : Binary64) : Mixed (int n) (float x)
  | doubleLong (x : Binary64) (n : Int64) : Mixed (float x) (int n)

variable {a b c : Value}

theorem compare?_isSome_iff {x y : Binary64} :
    (x.compare? y).isSome = true ↔ x.isNaN = false ∧ y.isNaN = false := by
  rw [Option.isSome_iff_ne_none, ne_eq, Binary64.compare?_eq_none_iff, not_or,
    Bool.not_eq_true, Bool.not_eq_true]

/-- Texts and numbers have an order, and nothing else. -/
theorem isSome_order?_iff : (a.order? b).isSome = true ↔ a.Ordered b := by
  constructor
  · intro h
    unfold order? at h
    split at h
    · exact .numbers (.long _) (.long _)
    · exact .numbers (.long _) (.double (compare?_isSome_iff.mp h).2)
    · exact .numbers (.double (compare?_isSome_iff.mp h).1) (.long _)
    · exact .numbers (.double (compare?_isSome_iff.mp h).1) (.double (compare?_isSome_iff.mp h).2)
    · exact .texts _ _
    · exact absurd h Bool.false_ne_true
  · intro h
    cases h with
    | texts s t => rfl
    | numbers ha hb =>
        cases ha with
        | long m =>
            cases hb with
            | long n => rfl
            | double hy => exact compare?_isSome_iff.mpr ⟨Binary64.isNaN_ofInt _, hy⟩
        | double hx =>
            cases hb with
            | long n => exact compare?_isSome_iff.mpr ⟨hx, Binary64.isNaN_ofInt _⟩
            | double hy => exact compare?_isSome_iff.mpr ⟨hx, hy⟩

/-! ## Comparing the other way around -/

theorem order?_swap (a b : Value) : a.order? b = (b.order? a).map Ordering.swap := by
  cases a with
  | int m =>
      cases b with
      | int n => exact congrArg some Std.OrientedOrd.eq_swap
      | float y => exact Binary64.compare?_swap _ y
      | _ => rfl
  | float x =>
      cases b with
      | int n => exact Binary64.compare?_swap x _
      | float y => exact Binary64.compare?_swap x y
      | _ => rfl
  | string s =>
      cases b with
      | string t => exact congrArg some Std.OrientedOrd.eq_swap
      | _ => rfl
  | _ => cases b <;> rfl

theorem order?_eq_comm (a b : Value) :
    (a.order? b).map (· == .eq) = (b.order? a).map (· == .eq) := by
  rw [order?_swap, Option.map_map]
  refine congrArg (Option.map · (b.order? a)) ?_
  funext order
  cases order <;> rfl

theorem sameAs?_comm (a b : Value) : a.sameAs? b = b.sameAs? a := by
  cases a with
  | null => cases b <;> rfl
  | bool x =>
      cases b with
      | bool y => exact congrArg some Bool.beq_comm
      | _ => rfl
  | list as =>
      cases b with
      | list bs => exact congrArg some (beq_comm _ _)
      | _ => rfl
  | map keys item =>
      cases b with
      | map keys' item' => exact congrArg some (beq_comm _ _)
      | _ => rfl
  | string s =>
      -- Texts and numbers are equal if their order says so.
      cases b with
      | string t => exact order?_eq_comm (string s) (string t)
      | _ => rfl
  | int m =>
      cases b with
      | int n => exact order?_eq_comm (int m) (int n)
      | float y => exact order?_eq_comm (int m) (float y)
      | _ => rfl
  | float x =>
      cases b with
      | int n => exact order?_eq_comm (float x) (int n)
      | float y => exact order?_eq_comm (float x) (float y)
      | _ => rfl

/-- Comparing the other way around turns the relation around. -/
theorem compare_mirror (a b : Value) (relation : Relation) :
    a.compare relation b = b.compare relation.mirror a := by
  have horder : (a.order? b).map relation.holdsFor =
      (b.order? a).map relation.mirror.holdsFor := by
    rw [order?_swap, Option.map_map]
    exact congrArg (Option.map · (b.order? a)) (funext relation.holdsFor_swap)
  cases relation with
  | equal => exact sameAs?_comm a b
  | _ => exact horder

/-! ## One order for all relations -/

theorem sameAs?_of_order? {order : Ordering} (h : a.order? b = some order) :
    a.sameAs? b = some (order == .eq) := by
  have hmap : (a.order? b).map (· == .eq) = some (order == .eq) := congrArg (Option.map _) h
  rw [← hmap]
  cases a with
  | int m =>
      cases b with
      | int n => rfl
      | float y => rfl
      | _ => exact absurd h nofun
  | float x =>
      cases b with
      | int n => rfl
      | float y => rfl
      | _ => exact absurd h nofun
  | string s =>
      cases b with
      | string t => rfl
      | _ => exact absurd h nofun
  | _ => cases b <;> exact absurd h nofun

/-- Where there is an order it answers all five relations. -/
theorem compare_of_order? {order : Ordering} (h : a.order? b = some order)
    (relation : Relation) : a.compare relation b = some (relation.holdsFor order) := by
  cases relation with
  | equal => exact sameAs?_of_order? h
  | _ =>
      unfold compare
      rw [h]
      rfl

/-- A relation other than equality is answered if and only if there is an order. -/
theorem isSome_compare_iff {relation : Relation} (h : relation ≠ .equal) :
    (a.compare relation b).isSome = true ↔ a.Ordered b := by
  rw [← isSome_order?_iff]
  cases relation with
  | equal => exact absurd rfl h
  | _ => exact iff_of_eq (congrArg (· = true) Option.isSome_map)

/-! ## Below -/

/-- One value is less than another: as a text, as an integer or as a double. -/
inductive IsBelow : Value → Value → Prop where
  | texts {s t : String} (h : Ord.compare s t = .lt) : IsBelow (string s) (string t)
  | longs {m n : Int64} (h : m.toInt < n.toInt) : IsBelow (int m) (int n)
  | doubles {a b : Value} {x y : Binary64} (ha : a.asDouble? = some x) (hb : b.asDouble? = some y)
      (hx : x.isNaN = false) (hy : y.isNaN = false) (h : x.position < y.position) : IsBelow a b

theorem compare?_eq_lt_iff {x y : Binary64} :
    x.compare? y = some .lt ↔
      (x.isNaN = false ∧ y.isNaN = false) ∧ x.position < y.position := by
  rw [← Bool.or_eq_false_iff]
  unfold Binary64.compare?
  cases x.isNaN || y.isNaN with
  | true => exact iff_of_false nofun nofun
  | false =>
      rw [if_neg Bool.false_ne_true, Option.some.injEq, compare_lt_iff_lt]
      exact (and_iff_right rfl).symm

theorem toInt_lt_of_position_lt {m n : Int64}
    (h : (Binary64.ofInt m.toInt).position < (Binary64.ofInt n.toInt).position) :
    m.toInt < n.toInt := by
  by_contra hle
  have := Binary64.position_ofInt_mono (Int.not_lt.mp hle)
  omega

theorem order?_eq_lt_iff : a.order? b = some .lt ↔ a.IsBelow b := by
  constructor
  · intro h
    unfold order? at h
    split at h
    · exact .longs (compare_lt_iff_lt.mp (Option.some.inj h))
    · rcases compare?_eq_lt_iff.mp h with ⟨⟨hx, hy⟩, hlt⟩
      exact .doubles rfl rfl hx hy hlt
    · rcases compare?_eq_lt_iff.mp h with ⟨⟨hx, hy⟩, hlt⟩
      exact .doubles rfl rfl hx hy hlt
    · rcases compare?_eq_lt_iff.mp h with ⟨⟨hx, hy⟩, hlt⟩
      exact .doubles rfl rfl hx hy hlt
    · exact .texts (Option.some.inj h)
    · exact absurd h nofun
  · intro h
    cases h with
    | texts h => exact congrArg some h
    | longs h => exact congrArg some (compare_lt_iff_lt.mpr h)
    | doubles ha hb hx hy h =>
        have hlt := compare?_eq_lt_iff.mpr ⟨⟨hx, hy⟩, h⟩
        cases a with
        | int m =>
            cases ha
            cases b with
            | int n =>
                -- Integers are compared as such, and rounding has not turned them around.
                cases hb
                exact congrArg some (compare_lt_iff_lt.mpr (toInt_lt_of_position_lt h))
            | float y =>
                cases hb
                exact hlt
            | _ => exact absurd hb nofun
        | float x =>
            cases ha
            cases b with
            | int n =>
                cases hb
                exact hlt
            | float y =>
                cases hb
                exact hlt
            | _ => exact absurd hb nofun
        | _ => exact absurd ha nofun

theorem isBelow_trans (hab : a.IsBelow b) (hbc : b.IsBelow c) : a.IsBelow c := by
  cases hab with
  | texts h =>
      cases hbc with
      | texts h' => exact .texts (Std.TransCmp.lt_trans h h')
      | doubles hb => exact absurd hb nofun
  | longs h =>
      cases hbc with
      | longs h' => exact .longs (Int.lt_trans h h')
      | doubles hb hc hy hz h' =>
          -- The first step may be lost by rounding, but the second is strict.
          cases hb
          have hle := Binary64.position_ofInt_mono (Int.le_of_lt h)
          exact .doubles rfl hc (Binary64.isNaN_ofInt _) hz (Int.lt_of_le_of_lt hle h')
  | doubles ha hb hx hy h =>
      cases hbc with
      | texts => exact absurd hb nofun
      | longs h' =>
          -- Here the first step is strict.
          cases hb
          have hle := Binary64.position_ofInt_mono (Int.le_of_lt h')
          exact .doubles ha rfl hx (Binary64.isNaN_ofInt _) (Int.lt_of_lt_of_le h hle)
      | doubles hb' hc _ hz h' =>
          rw [hb] at hb'
          cases hb'
          exact .doubles ha hc hx hz (Int.lt_trans h h')

theorem compare_below_iff : a.compare .below b = some true ↔ a.IsBelow b := by
  rw [← order?_eq_lt_iff]
  show (a.order? b).map Relation.below.holdsFor = some true ↔ _
  cases a.order? b with
  | none => exact iff_of_false nofun nofun
  | some order => cases order <;> decide

/-! ## Equality -/

theorem map_eq_iff {order? : Option Ordering} :
    order?.map (· == .eq) = some true ↔ order? = some .eq := by
  cases order? with
  | none => exact iff_of_false nofun nofun
  | some order => cases order <;> decide

/-- Unless one of them is an integer and the other a double, two values count as equal
    if and only if they are equal in the strict sense. -/
theorem sameAs?_eq_true_iff (h : ¬ a.Mixed b) : a.sameAs? b = some true ↔ (a == b) = true := by
  cases a with
  | null => cases b <;> exact iff_of_eq (Option.some.injEq _ _)
  | bool x =>
      cases b with
      | bool y => exact iff_of_eq (Option.some.injEq _ _)
      | _ => exact iff_of_false nofun nofun
  | list as =>
      cases b with
      | list bs => exact iff_of_eq (Option.some.injEq _ _)
      | _ => exact iff_of_false nofun nofun
  | map keys item =>
      cases b with
      | map keys' item' => exact iff_of_eq (Option.some.injEq _ _)
      | _ => exact iff_of_false nofun nofun
  | string s =>
      cases b with
      | string t =>
          -- Here equality comes from the order, in which equal means the same.
          show ((string s).order? (string t)).map (· == .eq) = some true ↔ (s == t) = true
          rw [map_eq_iff, order?, Option.some.injEq, beq_iff_eq,
            Std.LawfulEqOrd.compare_eq_iff_eq]
      | _ => exact iff_of_false nofun nofun
  | int m =>
      cases b with
      | int n =>
          show ((int m).order? (int n)).map (· == .eq) = some true ↔ (m == n) = true
          rw [map_eq_iff, order?, Option.some.injEq, beq_iff_eq,
            Std.LawfulEqOrd.compare_eq_iff_eq, Int64.toInt_inj]
      | float y => exact absurd (.longDouble m y) h
      | _ => exact iff_of_false nofun nofun
  | float x =>
      cases b with
      | int n => exact absurd (.doubleLong x n) h
      | float y =>
          show (x.compare? y).map _ = some true ↔ (x.compare? y == some .eq) = true
          rw [map_eq_iff, beq_iff_eq]
      | _ => exact iff_of_false nofun nofun

/-- Values that are equal in the strict sense are of one kind. -/
theorem not_mixed_of_beq (h : (a == b) = true) : ¬ a.Mixed b := by
  rintro (⟨n, x⟩ | ⟨x, n⟩)
  · exact absurd h nofun
  · exact absurd h nofun

/-! ## All together -/

/-- How the relations between three values fit together. -/
structure Coherent (a b c : Value) : Prop where
  /-- The other way around, less is greater and equal is equal. -/
  mirrored : ∀ relation, a.compare relation b = b.compare relation.mirror a
  /-- Two texts and two numbers have an order, and nothing else has. -/
  isSome_iff : ∀ relation, relation ≠ .equal →
    ((a.compare relation b).isSome = true ↔ a.Ordered b)
  /-- Where there is an order, one of less, equal and greater holds, and only one. -/
  exists_strict : a.Ordered b → ∃ relation ∈ Relation.strict, ∀ other ∈ Relation.strict,
    a.compare other b = some (decide (other = relation))
  atMost_iff : a.Ordered b → (a.compare .atMost b = some true ↔
    a.compare .below b = some true ∨ a.compare .equal b = some true)
  atLeast_iff : a.Ordered b → (a.compare .atLeast b = some true ↔
    a.compare .above b = some true ∨ a.compare .equal b = some true)
  /-- A chain of lesser values may change between integers and doubles. -/
  below_trans : a.compare .below b = some true → b.compare .below c = some true →
    a.compare .below c = some true
  equal_of_beq : (a == b) = true → a.compare .equal b = some true
  beq_of_equal : a.compare .equal b = some true → ¬ a.Mixed b → (a == b) = true

/-- The relations between any three values fit together. -/
theorem compare_coherent (a b c : Value) : Coherent a b c := by
  -- An order answers all relations at once, so each of its three cases can be looked at.
  have horder : a.Ordered b → ∃ order, ∀ relation : Relation,
      a.compare relation b = some (relation.holdsFor order) := by
    intro h
    rcases Option.isSome_iff_exists.mp (isSome_order?_iff.mpr h) with ⟨order, horder⟩
    exact ⟨order, compare_of_order? horder⟩
  exact
    { mirrored := compare_mirror a b
      isSome_iff := fun _ hne => isSome_compare_iff hne
      exists_strict := by
        intro h
        rcases horder h with ⟨order, hanswer⟩
        rcases Relation.exists_strict order with ⟨relation, hmem, hholds⟩
        refine ⟨relation, hmem, fun other hother => ?_⟩
        rw [hanswer, hholds other hother]
      atMost_iff := by
        intro h
        rcases horder h with ⟨order, hanswer⟩
        rw [hanswer, hanswer, hanswer]
        cases order <;> decide
      atLeast_iff := by
        intro h
        rcases horder h with ⟨order, hanswer⟩
        rw [hanswer, hanswer, hanswer]
        cases order <;> decide
      below_trans := by
        intro hab hbc
        rw [compare_below_iff] at hab hbc ⊢
        exact isBelow_trans hab hbc
      equal_of_beq := fun h => (sameAs?_eq_true_iff (not_mixed_of_beq h)).mpr h
      beq_of_equal := fun h hmixed => (sameAs?_eq_true_iff hmixed).mp h }

end Value

end Decision
