import Decision.Value.Basic
import Mathlib.Data.List.Forall2

/-!
# Equality of Values

How far equality is from being the same.

Equality of values is not reflexive, because a NaN is not equal to itself, and
it does not imply identity, because the two zeros are equal. It is symmetric and
transitive, though, and what it confuses is little: unless one of them has parts,
two values that are equal are one value or two zeros. `Value.Akin` lists what is
left.

A NaN is the only thing that keeps a value from being equal to itself, and it
does so from any depth: `Value.HoldsNaN` looks for it in lists and maps, and in
the lists and maps inside them.

## Main definitions

* `Value.Akin`: Two values that may be equal.
* `Value.HoldsNaN`: A value with a NaN somewhere in it.

## Theorems

* `Binary64.eq_or_zero_of_beq`: Equal doubles are the same or both zero.
* `Value.beq_trans`: What is equal to an equal value is equal.
* `Value.akin_of_beq`: Equal values are akin.
* `Value.forall₂_of_beq`: Equal lists have equal values at equal places.
* `Value.list_beq_self_iff`: A list is equal to itself unless it holds a NaN.
-/

namespace Decision

namespace Binary64

/-- Doubles are equal if they stand at one place in the order and neither is a
    NaN. -/
theorem beq_iff {x y : Binary64} :
    (x == y) = true ↔ (x.isNaN = false ∧ y.isNaN = false) ∧ x.position = y.position := by
  show (x.compare? y == some .eq) = true ↔ _
  rw [← Bool.or_eq_false_iff]
  unfold compare?
  cases x.isNaN || y.isNaN with
  | true => exact iff_of_false nofun nofun
  | false =>
      rw [if_neg Bool.false_ne_true, beq_iff_eq, Option.some.injEq]
      have heq : compare x.position y.position = .eq ↔ x.position = y.position :=
        Std.LawfulEqCmp.compare_eq_iff_eq
      rw [heq]
      exact (and_iff_right rfl).symm

theorem beq_trans {x y z : Binary64} (hxy : (x == y) = true) (hyz : (y == z) = true) :
    (x == z) = true := by
  rw [beq_iff] at hxy hyz ⊢
  exact ⟨⟨hxy.1.1, hyz.1.2⟩, hxy.2.trans hyz.2⟩

theorem eq_zero_of_magnitude {x : Binary64} (h : x.magnitude = 0) : x = zero x.negative := by
  rcases x with ⟨negative, m, hm⟩
  cases h
  rfl

/-- Doubles at one place differ only in the sign of zero. -/
theorem eq_or_zero_of_beq {x y : Binary64} (h : (x == y) = true) :
    x = y ∨ ∃ s t, x = zero s ∧ y = zero t := by
  have hplace : x.position = y.position := (beq_iff.mp h).2
  unfold position at hplace
  by_cases hsign : x.negative = y.negative
  · -- Under one sign the places are as far from zero as the doubles.
    have hmagnitude : x.magnitude = y.magnitude := by
      rw [hsign] at hplace
      split at hplace <;> omega
    rcases x with ⟨negative, m, hm⟩
    rcases y with ⟨negative', n, hn⟩
    cases hsign
    cases hmagnitude
    exact Or.inl rfl
  · -- Places on two sides of zero can only be zero.
    have hzero : x.magnitude = 0 ∧ y.magnitude = 0 := by
      split at hplace <;> split at hplace
      · next hx hy => exact absurd (hx.trans hy.symm) hsign
      · omega
      · omega
      · next hx hy =>
          rw [Bool.not_eq_true] at hx hy
          exact absurd (hx.trans hy.symm) hsign
    exact Or.inr ⟨_, _, eq_zero_of_magnitude hzero.1, eq_zero_of_magnitude hzero.2⟩

end Binary64

namespace Value

/-- Two values of which one may be equal to the other: one value twice, two zeros,
    or two values with parts. -/
inductive Akin : Value → Value → Prop where
  | same (a : Value) : Akin a a
  | zeros (s t : Bool) : Akin (float (.zero s)) (float (.zero t))
  | lists (as bs : List Value) : Akin (list as) (list bs)
  | maps (keys keys' : Keys) (item : Fin keys.size → Value) (item' : Fin keys'.size → Value) :
      Akin (map keys item) (map keys' item')

/-- Equal values are akin. -/
theorem akin_of_beq {a b : Value} (h : (a == b) = true) : Akin a b := by
  have hbeq : beq a b = true := h
  cases a with
  | null =>
      cases b with
      | null => exact .same null
      | _ => exact absurd hbeq nofun
  | bool x =>
      cases b with
      | bool y =>
          rw [beq, beq_iff_eq] at hbeq
          rw [hbeq]
          exact .same (bool y)
      | _ => exact absurd hbeq nofun
  | int m =>
      cases b with
      | int n =>
          rw [beq, beq_iff_eq] at hbeq
          rw [hbeq]
          exact .same (int n)
      | _ => exact absurd hbeq nofun
  | string s =>
      cases b with
      | string t =>
          rw [beq, beq_iff_eq] at hbeq
          rw [hbeq]
          exact .same (string t)
      | _ => exact absurd hbeq nofun
  | float x =>
      cases b with
      | float y =>
          rw [beq] at hbeq
          -- Equal doubles are one double, zeros apart.
          rcases Binary64.eq_or_zero_of_beq hbeq with rfl | ⟨s, t, rfl, rfl⟩
          · exact .same (float x)
          · exact .zeros s t
      | _ => exact absurd hbeq nofun
  | list as =>
      cases b with
      | list bs => exact .lists as bs
      | _ => exact absurd hbeq nofun
  | map keys item =>
      cases b with
      | map keys' item' => exact .maps keys keys' item item'
      | _ => exact absurd hbeq nofun

/-! ## Symmetry and transitivity -/

mutual

/-- What is equal to an equal value is equal. -/
theorem beq_trans {a b c : Value} (hab : beq a b = true) (hbc : beq b c = true) :
    beq a c = true := by
  cases a with
  | list as =>
      cases b with
      | list bs =>
          cases c with
          | list cs =>
              rw [beq] at hab hbc ⊢
              exact beqItems_trans hab hbc
          | _ => exact absurd hbc nofun
      | _ => exact absurd hab nofun
  | map keys item =>
      cases b with
      | map keys' item' =>
          cases c with
          | map keys'' item'' =>
              simp only [beq] at hab hbc ⊢
              split at hab
              · next hfirst =>
                  subst hfirst
                  split at hbc
                  · next hsecond =>
                      -- All three have the same names, and the values go name by name.
                      subst hsecond
                      rw [dif_pos rfl, List.all_eq_true]
                      rw [List.all_eq_true] at hab hbc
                      exact fun i hi => beq_trans (hab i hi) (hbc i hi)
                  · exact absurd hbc Bool.false_ne_true
              · exact absurd hab Bool.false_ne_true
          | _ => exact absurd hbc nofun
      | _ => exact absurd hab nofun
  | float x =>
      cases b with
      | float y =>
          cases c with
          | float z =>
              rw [beq] at hab hbc ⊢
              exact Binary64.beq_trans hab hbc
          | _ => exact absurd hbc nofun
      | _ => exact absurd hab nofun
  | _ =>
      -- Without doubles or parts equal values are the same.
      cases akin_of_beq hab
      exact hbc

theorem beqItems_trans {as bs cs : List Value} (hab : beqItems as bs = true)
    (hbc : beqItems bs cs = true) : beqItems as cs = true := by
  match as, bs, cs with
  | [], [], cs => exact hbc
  | [], _ :: _, _ => exact absurd hab nofun
  | _ :: _, [], _ => exact absurd hab nofun
  | _ :: _, _ :: _, [] => exact absurd hbc nofun
  | a :: as, b :: bs, c :: cs =>
      simp only [beqItems, Bool.and_eq_true] at hab hbc ⊢
      exact ⟨beq_trans hab.1 hbc.1, beqItems_trans hab.2 hbc.2⟩

end

instance : PartialEquivBEq Value where
  symm {a b} h := by
    show beq b a = true
    rw [beq_comm]
    exact h
  trans h h' := beq_trans h h'

/-- Lists are equal in the way that lists inside values are. -/
theorem beq_list (as bs : List Value) : (as == bs) = beqItems as bs := by
  induction as generalizing bs with
  | nil =>
      cases bs with
      | nil => rfl
      | cons b bs => rfl
  | cons a as ih =>
      cases bs with
      | nil => rfl
      | cons b bs =>
          rw [List.cons_beq_cons, ih, beqItems]
          rfl

instance : PartialEquivBEq (List Value) where
  symm {as bs} h := by
    rw [beq_list, beqItems_comm, ← beq_list]
    exact h
  trans {as bs cs} h h' := by
    rw [beq_list] at h h' ⊢
    exact beqItems_trans h h'

/-- Equal lists have equal values at equal places. -/
theorem forall₂_of_beq {as bs : List Value} (h : (as == bs) = true) :
    List.Forall₂ (fun a b => (a == b) = true) as bs := by
  induction as generalizing bs with
  | nil =>
      cases bs with
      | nil => exact .nil
      | cons b bs => exact absurd h nofun
  | cons a as ih =>
      cases bs with
      | nil => exact absurd h nofun
      | cons b bs =>
          rw [List.cons_beq_cons, Bool.and_eq_true] at h
          exact .cons h.1 (ih h.2)

/-! ## Reflexivity -/

/-- A NaN is in a value: the value is one, or it has one in a part. -/
inductive HoldsNaN : Value → Prop where
  | float {x : Binary64} (h : x.isNaN = true) : HoldsNaN (float x)
  | list {items : List Value} {item : Value} (hitem : item ∈ items) (h : HoldsNaN item) :
      HoldsNaN (list items)
  | map {keys : Keys} {item : Fin keys.size → Value} (i : Fin keys.size) (h : HoldsNaN (item i)) :
      HoldsNaN (map keys item)

theorem beqItems_self_iff {items : List Value} :
    beqItems items items = true ↔ ∀ item ∈ items, beq item item = true := by
  induction items with
  | nil => exact iff_of_true rfl (List.forall_mem_nil _)
  | cons item items ih => rw [beqItems, Bool.and_eq_true, ih, List.forall_mem_cons]

theorem beq_map_self_iff {keys : Keys} {item : Fin keys.size → Value} :
    beq (map keys item) (map keys item) = true ↔ ∀ i, beq (item i) (item i) = true := by
  rw [beq, dif_pos rfl, List.all_eq_true]
  exact ⟨fun h i => h i (List.mem_finRange i), fun h i _ => h i⟩

/-- A value with a NaN in it is not equal to itself. -/
theorem not_beq_self_of_holdsNaN {value : Value} (h : value.HoldsNaN) :
    ¬ beq value value = true := by
  induction h with
  | float hnan =>
      rw [beq, Binary64.beq_iff, hnan]
      exact fun h => absurd h.1.1 nofun
  | list hitem _ ih =>
      rw [beq, beqItems_self_iff]
      exact fun h => ih (h _ hitem)
  | map i _ ih =>
      rw [beq_map_self_iff]
      exact fun h => ih (h i)

mutual

/-- Without a NaN in it a value is equal to itself. -/
theorem beq_self_of_not_holdsNaN (value : Value) (h : ¬ value.HoldsNaN) :
    beq value value = true := by
  cases value with
  | float x =>
      rw [beq, Binary64.beq_iff]
      have hnan : x.isNaN = false := Bool.eq_false_iff.mpr fun hnan => h (.float hnan)
      exact ⟨⟨hnan, hnan⟩, rfl⟩
  | list items =>
      rw [beq]
      exact beqItems_self_of_not_holdsNaN items fun item hitem hnan => h (.list hitem hnan)
  | map keys item =>
      rw [beq_map_self_iff]
      exact fun i => beq_self_of_not_holdsNaN (item i) fun hnan => h (.map i hnan)
  | null => rfl
  | bool b => exact beq_self_eq_true b
  | int n => exact beq_self_eq_true n
  | string s => exact beq_self_eq_true s

theorem beqItems_self_of_not_holdsNaN (items : List Value)
    (h : ∀ item ∈ items, ¬ item.HoldsNaN) : beqItems items items = true := by
  cases items with
  | nil => rfl
  | cons item items =>
      rw [List.forall_mem_cons] at h
      rw [beqItems, Bool.and_eq_true]
      exact ⟨beq_self_of_not_holdsNaN item h.1, beqItems_self_of_not_holdsNaN items h.2⟩

end

/-- Some outputs are equal to themselves unless one of them has a NaN in it. -/
theorem list_beq_self_iff {values : List Value} :
    (values == values) = true ↔ ∀ value ∈ values, ¬ value.HoldsNaN := by
  rw [beq_list, beqItems_self_iff]
  constructor
  · exact fun h value hvalue hnan => not_beq_self_of_holdsNaN hnan (h value hvalue)
  · exact fun h value hvalue => beq_self_of_not_holdsNaN value (h value hvalue)

end Value

end Decision
