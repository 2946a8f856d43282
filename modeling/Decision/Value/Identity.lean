import Decision.Value.Basic

/-!
# Identity of Values

Whether two values are one and the same.

Equality of values follows the equality of numbers, so it takes the two zeros
for one and refuses a NaN its own company. Identity makes no such exceptions: it
is what it means for two values to be indistinguishable. It is decidable, since
a value is finite all the way down.

## Main definitions

* `Value.identical`: The test for identity.

## Theorems

* `Value.identical_iff`: The test decides identity.
-/

namespace Decision

namespace Value

mutual

/-- Whether two values are one and the same. -/
def identical : Value → Value → Bool
  | null, null => true
  | bool a, bool b => a == b
  | int a, int b => a == b
  | float x, float y => decide (x = y)
  | string s, string t => s == t
  | list as, list bs => identicalItems as bs
  | map keys item, map keys' item' =>
      if h : keys = keys' then
        (List.finRange keys.size).all fun i =>
          identical (item i) (item' (i.cast (congrArg Keys.size h)))
      else false
  | _, _ => false

/-- Whether two lists have the same items at the same places. -/
def identicalItems : List Value → List Value → Bool
  | [], [] => true
  | a :: as, b :: bs => identical a b && identicalItems as bs
  | _, _ => false

end

mutual

/-- The test decides identity. -/
theorem identical_iff (a b : Value) : identical a b = true ↔ a = b := by
  cases a with
  | list as =>
      cases b with
      | list bs => simp only [identical, list.injEq]; exact identicalItems_iff as bs
      | _ => simp only [identical, reduceCtorEq]
  | map keys item =>
      cases b with
      | map keys' item' =>
          simp only [identical]
          -- Items can be compared place by place once the names are the same.
          by_cases h : keys = keys'
          · subst h
            simp only [dite_true, List.all_eq_true, List.mem_finRange, forall_const,
              map.injEq, true_and, heq_eq_eq]
            constructor
            · intro hall
              funext i
              exact (identical_iff (item i) (item' i)).mp (hall i)
            · intro heq i
              exact (identical_iff (item i) (item' i)).mpr (congrFun heq i)
          · rw [dif_neg h]
            simp only [Bool.false_eq_true, map.injEq, h, false_and]
      | _ => simp only [identical, reduceCtorEq]
  | float x =>
      cases b with
      | float y => simp only [identical, decide_eq_true_eq, float.injEq]
      | _ => simp only [identical, Bool.false_eq_true, reduceCtorEq]
  | bool x =>
      cases b with
      | bool y => simp only [identical, beq_iff_eq, bool.injEq]
      | _ => simp only [identical, Bool.false_eq_true, reduceCtorEq]
  | int n =>
      cases b with
      | int m => simp only [identical, beq_iff_eq, int.injEq]
      | _ => simp only [identical, Bool.false_eq_true, reduceCtorEq]
  | string s =>
      cases b with
      | string t => simp only [identical, beq_iff_eq, string.injEq]
      | _ => simp only [identical, Bool.false_eq_true, reduceCtorEq]
  | null =>
      cases b with
      | null => simp only [identical]
      | _ => simp only [identical, Bool.false_eq_true, reduceCtorEq]

theorem identicalItems_iff (as bs : List Value) : identicalItems as bs = true ↔ as = bs := by
  cases as with
  | nil =>
      cases bs with
      | nil => simp only [identicalItems]
      | cons b bs => simp only [identicalItems, Bool.false_eq_true, List.nil_eq, reduceCtorEq]
  | cons a as =>
      cases bs with
      | nil => simp only [identicalItems, Bool.false_eq_true, reduceCtorEq]
      | cons b bs =>
          simp only [identicalItems, Bool.and_eq_true, List.cons.injEq]
          rw [identical_iff a b, identicalItems_iff as bs]

end

instance : DecidableEq Value := fun a b => decidable_of_iff _ (identical_iff a b)

end Value

end Decision
