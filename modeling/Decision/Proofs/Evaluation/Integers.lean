import Decision.Evaluation.Aggregation
import Decision.Proofs.Binary64.Rounding
import Mathlib.Algebra.BigOperators.Group.List.Basic
import Mathlib.Algebra.Order.Ring.Int
import Mathlib.Data.List.Infix

/-!
# Columns of Integers

What the sum of a column is worth when every value of it is an integer, up to
nulls, which do not count.

The sum is not always the number that the name promises. It is taken from left
to right and given up as soon as a partial sum leaves the range, even if later
values would bring it back. So it is the exact sum if every running total fits.
That the total fits is not enough, and since the running totals depend on the
order of the column where the total does not, neither does the sum keep its value
when the column is rearranged.

How far that goes is one statement: as long as the running totals fit, in
whatever order, the sum is exact and so the same; and once they do not, it is no
integer any more.

## Main definitions

* `Value.longs`, `Value.AreLongs`: The integers of a column, and a column that
  holds nothing else.
* `Numeral.Fits`: A number has room in 64 bits.
* `Value.exactSum`: The exact sum of integers.
* `Value.RunningTotalsFit`: Every partial sum has room in 64 bits.

## Theorems

* `Aggregator.apply_of_areLongs`: The nulls of a column do not count.
* `Value.longSum?_eq_some_iff`: When a sum of integers is one.
* `Aggregator.sum_of_areLongs`: The sum of a column of integers.
-/

namespace Decision

/-! ## Integers and nulls -/

namespace Value

/-- The integer that a value is, if it is one. -/
def long? : Value → Option Int64
  | int n => some n
  | _ => none

/-- The integers of a column, in its order. -/
def longs (column : List Value) : List Int64 := column.filterMap long?

/-- A column that holds an integer, and besides integers only nulls. -/
structure AreLongs (column : List Value) : Prop where
  plain : ∀ value ∈ column, value.isNull = true ∨ value.long?.isSome = true
  nonempty : longs column ≠ []

/-- Without its nulls such a column is its integers. -/
theorem filter_of_plain {column : List Value}
    (h : ∀ value ∈ column, value.isNull = true ∨ value.long?.isSome = true) :
    column.filter (fun value => !value.isNull) = (longs column).map int := by
  induction column with
  | nil => rfl
  | cons value column ih =>
      have hrest := ih fun other hother => h other (List.mem_cons_of_mem value hother)
      have hvalue := h value List.mem_cons_self
      cases value with
      | null => exact hrest
      | int n =>
          show int n :: column.filter _ = int n :: (longs column).map int
          rw [hrest]
      | _ =>
          rcases hvalue with hnull | hlong
          · exact absurd hnull Bool.false_ne_true
          · exact absurd hlong Bool.false_ne_true

theorem exists_cons_of_areLongs {column : List Value} (h : AreLongs column) :
    ∃ n ns, longs column = n :: ns := by
  cases hlongs : longs column with
  | nil => exact absurd hlongs h.nonempty
  | cons n ns => exact ⟨n, ns, rfl⟩

end Value

namespace Aggregator

/-- Every folding but the count reaches the integers and nothing else. -/
theorem apply_of_areLongs {aggregator : Aggregator} (hne : aggregator ≠ count)
    {column : List Value} (h : Value.AreLongs column) (name : String) :
    aggregator.apply name column =
      .ok (folded name (aggregator.fold? ((Value.longs column).map .int))) := by
  have hnumbers : ((Value.longs column).map Value.int).find?
      (fun value => value.asDouble?.isNone) = none := by
    rw [List.find?_eq_none]
    intro value hvalue
    rcases List.mem_map.mp hvalue with ⟨n, _, rfl⟩
    exact Bool.false_ne_true
  cases aggregator with
  | count => exact absurd rfl hne
  | sum => simp only [apply, Value.filter_of_plain h.plain, hnumbers]
  | min => simp only [apply, Value.filter_of_plain h.plain, hnumbers]
  | max => simp only [apply, Value.filter_of_plain h.plain, hnumbers]

theorem folded_inj {name : String} {a b : Value} :
    (Except.ok (folded name (some a)) : Except EvalError Result) = .ok (folded name (some b)) ↔
      a = b := by
  simp only [folded, Except.ok.injEq, Result.mk.injEq, List.cons.injEq, RuleResult.mk.injEq,
    Prod.mk.injEq, true_and, and_true]

end Aggregator

/-! ## Sums -/

namespace Numeral

/-- A number has room in 64 bits. -/
def Fits (n : Int) : Prop := Int64.minValue.toInt ≤ n ∧ n ≤ Int64.maxValue.toInt

instance (n : Int) : Decidable (Fits n) := inferInstanceAs (Decidable (_ ∧ _))

theorem fits_toInt (n : Int64) : Fits n.toInt := by
  have hmin : Int64.minValue.toInt = -2 ^ 63 := rfl
  have hmax : Int64.maxValue.toInt = 2 ^ 63 - 1 := rfl
  have hlo : -2 ^ 63 ≤ n.toInt := n.le_toInt
  have hhi : n.toInt < 2 ^ 63 := n.toInt_lt
  unfold Fits
  omega

theorem exists_long_of_fits {n : Int} (h : Fits n) : ∃ m, long? n = some m ∧ m.toInt = n := by
  have hlong : long? n = some (Int64.ofInt n) := if_pos h
  exact ⟨_, hlong, long?_eq_some_iff.mp hlong⟩

end Numeral

namespace Value

/-- The exact sum of integers. -/
def exactSum (ns : List Int64) : Int := (ns.map Int64.toInt).sum

/-- From a start on, every sum up to one of some integers has room in 64 bits. -/
def RunningTotalsFit (start : Int) (ns : List Int64) : Prop :=
  ∀ before, before <+: ns → Numeral.Fits (start + exactSum before)

instance (start : Int) (ns : List Int64) : Decidable (RunningTotalsFit start ns) :=
  decidable_of_iff (∀ before ∈ ns.inits, Numeral.Fits (start + exactSum before)) (by
    simp only [List.mem_inits]
    rfl)

theorem exactSum_nil : exactSum [] = 0 := rfl

theorem exactSum_cons (n : Int64) (ns : List Int64) :
    exactSum (n :: ns) = n.toInt + exactSum ns := by
  rw [exactSum, List.map_cons, List.sum_cons, ← exactSum]

theorem exactSum_perm {ms ns : List Int64} (h : ms.Perm ns) : exactSum ms = exactSum ns :=
  (h.map Int64.toInt).sum_eq

theorem fits_of_runningTotalsFit {start : Int} {ns : List Int64} (h : RunningTotalsFit start ns) :
    Numeral.Fits start := by
  have hstart := h [] List.nil_prefix
  rw [exactSum_nil, Int.add_zero] at hstart
  exact hstart

theorem runningTotalsFit_cons_iff {start : Int} {n : Int64} {ns : List Int64} :
    RunningTotalsFit start (n :: ns) ↔
      Numeral.Fits start ∧ RunningTotalsFit (start + n.toInt) ns := by
  constructor
  · intro h
    refine ⟨fits_of_runningTotalsFit h, ?_⟩
    intro before hbefore
    have htotal := h (n :: before) (List.cons_prefix_cons.mpr ⟨rfl, hbefore⟩)
    rw [exactSum_cons, ← Int.add_assoc] at htotal
    exact htotal
  · intro h before hbefore
    -- A beginning is empty or starts with the first integer.
    rcases List.prefix_cons_iff.mp hbefore with rfl | ⟨rest, rfl, hrest⟩
    · rw [exactSum_nil, Int.add_zero]
      exact h.1
    · rw [exactSum_cons, ← Int.add_assoc]
      exact h.2 rest hrest

/-- The integers are added up to an integer exactly if no running total leaves
    the range on the way, and then it is their exact sum. -/
theorem longSum?_eq_some_iff (start total : Int64) (ns : List Int64) :
    longSum? start (ns.map int) = some total ↔
      RunningTotalsFit start.toInt ns ∧ total.toInt = start.toInt + exactSum ns := by
  induction ns generalizing start with
  | nil =>
      rw [List.map_nil, longSum?, Option.some.injEq, exactSum_nil, Int.add_zero, Int64.toInt_inj]
      constructor
      · rintro rfl
        refine ⟨?_, rfl⟩
        intro before hbefore
        rw [List.prefix_nil.mp hbefore, exactSum_nil, Int.add_zero]
        exact Numeral.fits_toInt start
      · intro h
        exact h.2.symm
  | cons n ns ih =>
      rw [List.map_cons, longSum?, runningTotalsFit_cons_iff, exactSum_cons, ← Int.add_assoc]
      by_cases hfits : Numeral.Fits (start.toInt + n.toInt)
      · -- The next total is exact, and the walk goes on from there.
        rcases Numeral.exists_long_of_fits hfits with ⟨next, hnext, hexact⟩
        rw [hnext, Option.bind_some, ih, hexact]
        constructor
        · intro h
          exact ⟨⟨Numeral.fits_toInt start, h.1⟩, h.2⟩
        · intro h
          exact ⟨h.1.2, h.2⟩
      · -- The next total is out of range, and it is a running total.
        have hnone : Numeral.long? (start.toInt + n.toInt) = none := if_neg hfits
        rw [hnone, Option.bind_none]
        constructor
        · intro h
          exact absurd h (by simp only [reduceCtorEq, not_false_eq_true])
        · intro h
          exact absurd (fits_of_runningTotalsFit h.1.2) hfits

theorem sum_eq_int_iff (ns : List Int64) (total : Int64) :
    sum (ns.map int) = int total ↔ RunningTotalsFit 0 ns ∧ total.toInt = exactSum ns := by
  have hiff := longSum?_eq_some_iff 0 total ns
  rw [Int64.toInt_zero, Int.zero_add] at hiff
  rw [← hiff]
  unfold sum
  split
  · rename_i found hfound
    rw [hfound, Value.int.injEq, Option.some.injEq]
  · rename_i hnone
    rw [hnone]
    simp only [reduceCtorEq]

theorem exists_total_of_runningTotalsFit {ns : List Int64} (h : RunningTotalsFit 0 ns) :
    ∃ total, sum (ns.map int) = int total ∧ total.toInt = exactSum ns := by
  -- All the integers are a beginning too.
  have hfits := h ns List.prefix_rfl
  rw [Int.zero_add] at hfits
  rcases Numeral.exists_long_of_fits hfits with ⟨total, _, hexact⟩
  exact ⟨total, (sum_eq_int_iff ns total).mpr ⟨h, hexact⟩, hexact⟩

theorem filterMap_asDouble?_map_int (ns : List Int64) :
    (ns.map int).filterMap asDouble? = ns.map fun n => Binary64.ofInt n.toInt := by
  rw [List.filterMap_map, ← List.filterMap_eq_map]
  rfl

theorem sum_of_not_runningTotalsFit {ns : List Int64} (h : ¬ RunningTotalsFit 0 ns) :
    sum (ns.map int) = float (Binary64.sum (ns.map fun n => Binary64.ofInt n.toInt)) := by
  unfold sum
  split
  · rename_i total htotal
    have hfits := (longSum?_eq_some_iff 0 total ns).mp htotal
    exact absurd hfits.1 h
  · rw [filterMap_asDouble?_map_int]

end Value

namespace Aggregator

/-- The sum of a column of integers is their exact sum if every running total
    fits, and the sum of their doubles otherwise. Two columns with the same
    integers in another order have the same sum for as long as both run within
    the range. -/
theorem sum_of_areLongs {column : List Value} (h : Value.AreLongs column) (name : String) :
    (∀ total, sum.apply name column = .ok (folded name (some (.int total))) ↔
      Value.RunningTotalsFit 0 (Value.longs column) ∧
        total.toInt = Value.exactSum (Value.longs column)) ∧
    (¬ Value.RunningTotalsFit 0 (Value.longs column) →
      sum.apply name column = .ok (folded name (some (.float (Binary64.sum
        ((Value.longs column).map fun n => Binary64.ofInt n.toInt)))))) ∧
    (∀ other, Value.AreLongs other → (Value.longs other).Perm (Value.longs column) →
      Value.RunningTotalsFit 0 (Value.longs column) →
      (sum.apply name other = sum.apply name column ↔
        Value.RunningTotalsFit 0 (Value.longs other))) := by
  have happly : ∀ column, Value.AreLongs column → sum.apply name column =
      .ok (folded name (some (Value.sum ((Value.longs column).map .int)))) := by
    intro column h
    rcases Value.exists_cons_of_areLongs h with ⟨n, ns, hlongs⟩
    rw [apply_of_areLongs (by decide) h, hlongs]
    rfl
  refine ⟨?_, ?_, ?_⟩
  · intro total
    rw [happly column h, folded_inj, Value.sum_eq_int_iff]
  · intro hfits
    rw [happly column h, Value.sum_of_not_runningTotalsFit hfits]
  · intro other hother hperm hfits
    rw [happly column h, happly other hother, folded_inj]
    -- The exact sum is the same for both, so only the way to it can differ.
    rcases Value.exists_total_of_runningTotalsFit hfits with ⟨total, htotal, hexact⟩
    rw [htotal, Value.sum_eq_int_iff, Value.exactSum_perm hperm]
    constructor
    · intro hsum
      exact hsum.1
    · intro hother
      exact ⟨hother, hexact⟩

/-- A running total may come close to the limit, and nulls do not count. -/
theorem sum_nearLimit :
    Value.AreLongs [.int Int64.maxValue, .null, .int (-2), .int 1] ∧
    sum.apply "total" [.int Int64.maxValue, .null, .int (-2), .int 1] =
      .ok (folded "total" (some (.int (Int64.maxValue - 1)))) := by
  have hlongs : Value.AreLongs [.int Int64.maxValue, .null, .int (-2), .int 1] :=
    ⟨by decide, by decide⟩
  exact ⟨hlongs, ((sum_of_areLongs hlongs "total").1 _).mpr ⟨by decide +kernel, by decide⟩⟩

/-- The exact sum has room in 64 bits, but the first two integers together have
    not. In another order the same integers have their exact sum. -/
theorem sum_beyondLimit :
    Numeral.Fits (Value.exactSum [Int64.maxValue, 1, -1]) ∧
    sum.apply "total" [.int Int64.maxValue, .int 1, .int (-1)] =
      .ok (folded "total" (some (.float (.ofInt (2 ^ 63))))) ∧
    sum.apply "total" [.int Int64.maxValue, .int (-1), .int 1] =
      .ok (folded "total" (some (.int Int64.maxValue))) := by
  refine ⟨by decide, by decide +kernel, by decide +kernel⟩

end Aggregator

end Decision
