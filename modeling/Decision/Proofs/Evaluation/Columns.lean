import Decision.Proofs.Evaluation.Extremes
import Decision.Proofs.Evaluation.Origins

/-!
# Folding a Column

What a table with an aggregator reports.

Such a table has one output clause, so each rule that matches has one value to
give, and the values are the column. The evaluation does not keep that column.
It makes results of the rules and then looks the name of the clause up in them,
and `exists_results_of_contributes` says that this brings back every value once
and in its place.

The rest is about the column alone. `Aggregator.Folds` says what may come of it:
an error, which carries the first value that is no number, nothing, or a single
value. Nulls are passed over and may stand anywhere, so everything is said of
the column as it is, without the detour over a column from which they were
removed. The order in which the least and the greatest are sought tells all
doubles apart, NaNs and the zeros included.

## Main definitions

* `Value.isForeign`: A value that is neither null nor a number.
* `Value.SumOf`, `Value.LeastOf`, `Value.GreatestOf`: The values that a column is
  folded to.
* `Aggregator.Folds`: What a folding makes of a column.
* `Engine.Contributes`: What a rule adds to the column.

## Theorems

* `exists_of_survives_filter`: What survives among some of the items.
* `folds_apply`: What a folding makes of a column.
* `folds_of_contributes`: The report of a table with an aggregator.
-/

namespace Decision

/-! ## What survives -/

/-- An item that survives among those that pass a test stands in the whole list, in
    front of items that do not beat it and behind items that it beats, as far as
    they pass the test. -/
theorem exists_of_survives_filter {α : Type} {beats : α → α → Prop} {p : α → Bool}
    {items : List α} {item : α} (h : Survives beats (items.filter p) item) :
    ∃ before after, items = before ++ item :: after ∧ p item = true ∧
      (∀ other ∈ before, p other = true → beats item other) ∧
      ∀ other ∈ after, p other = true → ¬ beats other item := by
  rcases h with ⟨before, after, heq, hbefore, hafter⟩
  rcases List.filter_eq_append_iff.mp heq with ⟨first, rest, rfl, rfl, hrest⟩
  rcases List.filter_eq_cons_iff.mp hrest with ⟨failing, last, rfl, hfailing, hitem, rfl⟩
  refine ⟨first ++ failing, last, (List.append_assoc first failing _).symm, hitem, ?_, ?_⟩
  · intro other hother hp
    rcases List.mem_append.mp hother with hother | hother
    · exact hbefore other (List.mem_filter.mpr ⟨hother, hp⟩)
    · exact absurd hp (hfailing other hother)
  · intro other hother hp
    exact hafter other (List.mem_filter.mpr ⟨hother, hp⟩)

namespace Value

/-! ## Values of a column -/

/-- A value that is neither null nor a number. -/
def isForeign : Value → Bool
  | null | int _ | float _ => false
  | _ => true

theorem isForeign_eq (value : Value) :
    value.isForeign = (!value.isNull && value.asDouble?.isNone) := by
  cases value <;> rfl

theorem isNull_of_asDouble? {value : Value} {x : Binary64} (h : value.asDouble? = some x) :
    value.isNull = false := by
  cases value with
  | null => exact absurd h nofun
  | _ => rfl

theorem exists_asDouble? {value : Value} (hnull : value.isNull = false)
    (h : value.isForeign = false) : ∃ x, value.asDouble? = some x := by
  rw [isForeign_eq, hnull, Bool.not_false, Bool.true_and, Option.isNone_eq_false_iff] at h
  exact Option.isSome_iff_exists.mp h

theorem place_of_asDouble? {value : Value} {x : Binary64} (h : value.asDouble? = some x) :
    value.place = x.totalPosition := by
  rw [place, toDouble, h, Option.getD_some]

/-- The sum of the integers of a column, if it holds nothing else and no running
    total leaves the range, and otherwise the sum of its doubles. -/
inductive SumOf (column : List Value) : Value → Prop where
  | integers {total : Int64}
      (hplain : ∀ value ∈ column, value.isNull = true ∨ value.long?.isSome = true)
      (hfit : RunningTotalsFit 0 (longs column)) (htotal : total.toInt = exactSum (longs column)) :
      SumOf column (int total)
  | doubles
      (h : ¬ ((∀ value ∈ column, value.isNull = true ∨ value.long?.isSome = true) ∧
        RunningTotalsFit 0 (longs column))) :
      SumOf column (float (Binary64.sum (column.filterMap asDouble?)))

/-- A number of a column that is less than every number in front of it, and to
    which no number behind it is less. -/
def LeastOf (column : List Value) (value : Value) : Prop :=
  ∃ before after x, column = before ++ value :: after ∧ value.asDouble? = some x ∧
    (∀ other ∈ before, ∀ y, other.asDouble? = some y → x.totalCompare y = .lt) ∧
    ∀ other ∈ after, ∀ y, other.asDouble? = some y → y.totalCompare x ≠ .lt

/-- A number of a column that is not less than any number in front of it, and to
    which every number behind it is less. -/
def GreatestOf (column : List Value) (value : Value) : Prop :=
  ∃ before after x, column = before ++ value :: after ∧ value.asDouble? = some x ∧
    (∀ other ∈ before, ∀ y, other.asDouble? = some y → x.totalCompare y ≠ .lt) ∧
    ∀ other ∈ after, ∀ y, other.asDouble? = some y → y.totalCompare x = .lt

/-- The numbers of a column are found whether or not its nulls are removed. -/
theorem filterMap_asDouble?_filter (column : List Value) :
    (column.filter fun value => !value.isNull).filterMap asDouble? =
      column.filterMap asDouble? := by
  rw [List.filterMap_filter]
  refine congrArg (fun f => column.filterMap f) (funext fun value => ?_)
  cases value <;> rfl

/-- If integers add up to an integer there is nothing else among them. -/
theorem exists_int_of_longSum? {start total : Int64} {values : List Value}
    (h : longSum? start values = some total) : ∀ value ∈ values, ∃ n, value = int n := by
  induction values generalizing start with
  | nil => exact List.forall_mem_nil _
  | cons value values ih =>
      cases value with
      | int n =>
          rcases Option.bind_eq_some_iff.mp h with ⟨next, _, hnext⟩
          exact List.forall_mem_cons.mpr ⟨⟨n, rfl⟩, ih hnext⟩
      | _ => exact absurd h nofun

theorem sumOf_sum (column : List Value) :
    SumOf column (sum (column.filter fun value => !value.isNull)) := by
  by_cases hplain : ∀ value ∈ column, value.isNull = true ∨ value.long?.isSome = true
  · have hvalues := filter_of_plain hplain
    by_cases hfit : RunningTotalsFit 0 (longs column)
    · rcases exists_total_of_runningTotalsFit hfit with ⟨total, hsum, htotal⟩
      rw [hvalues, hsum]
      exact .integers hplain hfit htotal
    · have hdoubles : sum ((longs column).map int) =
          float (Binary64.sum (column.filterMap asDouble?)) := by
        rw [← filterMap_asDouble?_filter, hvalues, sum_of_not_runningTotalsFit hfit,
          filterMap_asDouble?_map_int]
      rw [hvalues, hdoubles]
      exact .doubles fun h => hfit h.2
  · -- Something else than an integer keeps the integers from being added.
    have hnone : longSum? 0 (column.filter fun value => !value.isNull) = none := by
      rw [Option.eq_none_iff_forall_ne_some]
      intro total htotal
      refine hplain fun value hvalue => ?_
      by_cases hnull : value.isNull = true
      · exact Or.inl hnull
      · have hmem : value ∈ column.filter fun value => !value.isNull :=
          List.mem_filter.mpr ⟨hvalue, by rw [Bool.eq_false_iff.mpr hnull]; rfl⟩
        rcases exists_int_of_longSum? htotal value hmem with ⟨n, rfl⟩
        exact Or.inr rfl
    rw [sum, hnone, filterMap_asDouble?_filter]
    exact .doubles fun h => hplain h.1

section Extremes

variable {column : List Value} {first : Value} {rest : List Value}

/-- A walk along the numbers of a column ends with one of them, and what it says of
    the others it says of their doubles. -/
theorem exists_of_survives {beats : Value → Value → Prop} {item : Value}
    (hforeign : ∀ value ∈ column, value.isForeign = false)
    (h : Survives beats (column.filter fun value => !value.isNull) item) :
    ∃ before after x, column = before ++ item :: after ∧ item.asDouble? = some x ∧
      (∀ other ∈ before, ∀ y, other.asDouble? = some y → beats item other) ∧
      ∀ other ∈ after, ∀ y, other.asDouble? = some y → ¬ beats other item := by
  have hnumber : ∀ {other : Value} {y : Binary64}, other.asDouble? = some y →
      (!other.isNull) = true := by
    intro other y hy
    rw [isNull_of_asDouble? hy]
    rfl
  rcases exists_of_survives_filter h with ⟨before, after, heq, hitem, hbefore, hafter⟩
  have hmem : item ∈ column := by
    rw [heq]
    exact List.mem_append_right before List.mem_cons_self
  rcases exists_asDouble? ((Bool.not_eq_true' _).mp hitem) (hforeign item hmem) with ⟨x, hx⟩
  exact ⟨before, after, x, heq, hx, fun other hother y hy => hbefore other hother (hnumber hy),
    fun other hother y hy => hafter other hother (hnumber hy)⟩

theorem leastOf_leastFrom (hforeign : ∀ value ∈ column, value.isForeign = false)
    (h : column.filter (fun value => !value.isNull) = first :: rest) :
    LeastOf column (leastFrom first rest) := by
  have hsurvives := survives_survivor preference_place_lt first rest
  rw [← leastFrom_eq_survivor, ← h] at hsurvives
  rcases exists_of_survives hforeign hsurvives with ⟨before, after, x, heq, hx, hbefore, hafter⟩
  refine ⟨before, after, x, heq, hx, ?_, ?_⟩
  · intro other hother y hy
    have hless := hbefore other hother y hy
    rw [place_of_asDouble? hx, place_of_asDouble? hy] at hless
    exact compare_lt_iff_lt.mpr hless
  · intro other hother y hy hless
    refine hafter other hother y hy ?_
    rw [place_of_asDouble? hx, place_of_asDouble? hy]
    exact compare_lt_iff_lt.mp hless

theorem greatestOf_greatestFrom (hforeign : ∀ value ∈ column, value.isForeign = false)
    (h : column.filter (fun value => !value.isNull) = first :: rest) :
    GreatestOf column (greatestFrom first rest) := by
  have hsurvives := survives_survivor preference_place_le first rest
  rw [← greatestFrom_eq_survivor, ← h] at hsurvives
  rcases exists_of_survives hforeign hsurvives with ⟨before, after, x, heq, hx, hbefore, hafter⟩
  refine ⟨before, after, x, heq, hx, ?_, ?_⟩
  · intro other hother y hy hless
    have hle := hbefore other hother y hy
    rw [place_of_asDouble? hx, place_of_asDouble? hy] at hle
    exact absurd (compare_lt_iff_lt.mp hless) (Int.not_lt.mpr hle)
  · intro other hother y hy
    have hless := hafter other hother y hy
    rw [place_of_asDouble? hx, place_of_asDouble? hy, Int.not_le] at hless
    exact compare_lt_iff_lt.mpr hless

end Extremes

end Value

/-! ## Foldings -/

namespace Aggregator

/-- What a folding makes of a column, where `name` is that of the output clause. -/
structure Folds (aggregator : Aggregator) (name : String) (column : List Value)
    (answer : Except EvalError Result) : Prop where
  /-- COUNT counts every value. -/
  count : aggregator = .count → ∃ n : Int64, answer = .ok ⟨[⟨none, none, [(name, .int n)]⟩]⟩ ∧
    (Numeral.Fits column.length → n.toInt = column.length)
  /-- The others fail exactly if there is a value that is no number, and name the
      first. -/
  error_iff : ∀ e, answer = .error e ↔ aggregator ≠ .count ∧
    ∃ before value after, column = before ++ value :: after ∧
      (∀ earlier ∈ before, earlier.isForeign = false) ∧ value.isForeign = true ∧
      e = .nonNumeric aggregator value
  /-- Nothing comes of nulls alone. -/
  empty_iff : answer = .ok .empty ↔ aggregator ≠ .count ∧ ∀ value ∈ column, value.isNull = true
  /-- What comes of a column otherwise is a single value that belongs to no rule. -/
  single : ∀ result, answer = .ok result → result ≠ .empty →
    ∃ value, result = ⟨[⟨none, none, [(name, value)]⟩]⟩ ∧
      (aggregator = .sum → Value.SumOf column value) ∧
      (aggregator = .min → Value.LeastOf column value) ∧
      (aggregator = .max → Value.GreatestOf column value)

variable {aggregator : Aggregator} {column : List Value}

/-- Every folding but the count is made of the first value that is no number, if
    there is one, and otherwise of the values that are not null. -/
theorem apply_of_ne_count (hne : aggregator ≠ count) (name : String) (column : List Value) :
    aggregator.apply name column =
      match column.find? Value.isForeign with
      | some value => .error (.nonNumeric aggregator value)
      | none =>
          .ok (folded name (aggregator.fold? (column.filter fun value => !value.isNull))) := by
  have hfind : (column.filter fun value => !value.isNull).find?
      (fun value => value.asDouble?.isNone) = column.find? Value.isForeign := by
    rw [List.find?_filter]
    refine congrArg (fun p => column.find? p) (funext fun value => ?_)
    simp only [Value.isForeign_eq, Bool.decide_and, Bool.decide_eq_true]
  rw [← hfind]
  cases aggregator with
  | count => exact absurd rfl hne
  | _ => rfl

/-- Where every value is null or a number, a folding finds nothing among nulls and
    otherwise the value that it is about. -/
theorem fold?_cases (hne : aggregator ≠ count)
    (hforeign : ∀ value ∈ column, value.isForeign = false) :
    ((∀ value ∈ column, value.isNull = true) ∧
        aggregator.fold? (column.filter fun value => !value.isNull) = none) ∨
      ((¬ ∀ value ∈ column, value.isNull = true) ∧ ∃ value,
        aggregator.fold? (column.filter fun value => !value.isNull) = some value ∧
        (aggregator = .sum → Value.SumOf column value) ∧
        (aggregator = .min → Value.LeastOf column value) ∧
        (aggregator = .max → Value.GreatestOf column value)) := by
  have hnulls : column.filter (fun value => !value.isNull) = [] ↔
      ∀ value ∈ column, value.isNull = true := by
    rw [List.filter_eq_nil_iff]
    refine forall₂_congr fun value _ => ?_
    cases value.isNull <;> decide
  -- What is left of the column without its nulls decides whether there is a value.
  cases hvalues : column.filter fun value => !value.isNull with
  | nil =>
      refine Or.inl ⟨hnulls.mp hvalues, ?_⟩
      cases aggregator with
      | count => exact absurd rfl hne
      | _ => rfl
  | cons first rest =>
      have hsome : ¬ ∀ value ∈ column, value.isNull = true := by
        rw [← hnulls, hvalues]
        exact List.cons_ne_nil first rest
      refine Or.inr ⟨hsome, ?_⟩
      cases aggregator with
      | count => exact absurd rfl hne
      | sum =>
          refine ⟨_, rfl, fun _ => ?_, nofun, nofun⟩
          rw [← hvalues]
          exact Value.sumOf_sum column
      | min => exact ⟨_, rfl, nofun, fun _ => Value.leastOf_leastFrom hforeign hvalues, nofun⟩
      | max => exact ⟨_, rfl, nofun, nofun, fun _ => Value.greatestOf_greatestFrom hforeign hvalues⟩

theorem toInt_count {length : Nat} (h : Numeral.Fits length) :
    ((Numeral.long? length).getD Int64.maxValue).toInt = length := by
  rcases Numeral.exists_long_of_fits h with ⟨n, hlong, hn⟩
  rw [hlong, Option.getD_some, hn]

/-- The value that a folding complains about is the first one that is no number. -/
theorem exists_foreign_iff {e : EvalError} :
    (∃ before value after, column = before ++ value :: after ∧
      (∀ earlier ∈ before, earlier.isForeign = false) ∧ value.isForeign = true ∧
        e = .nonNumeric aggregator value) ↔
      ∃ value, column.find? Value.isForeign = some value ∧ e = .nonNumeric aggregator value := by
  simp only [List.find?_eq_some_iff_append, Bool.not_eq_true']
  constructor
  · rintro ⟨before, value, after, hcolumn, hbefore, hvalue, he⟩
    exact ⟨value, ⟨hvalue, before, after, hcolumn, hbefore⟩, he⟩
  · rintro ⟨value, ⟨hvalue, before, after, hcolumn, hbefore⟩, he⟩
    exact ⟨before, value, after, hcolumn, hbefore, hvalue, he⟩

/-- What a folding makes of a column. -/
theorem folds_apply (aggregator : Aggregator) (name : String) (column : List Value) :
    aggregator.Folds name column (aggregator.apply name column) := by
  by_cases hcount : aggregator = count
  · rw [hcount]
    exact {
      count := fun _ => ⟨_, rfl, toInt_count⟩
      error_iff := fun e => iff_of_false nofun fun h => h.1 rfl
      empty_iff := iff_of_false nofun fun h => h.1 rfl
      single := fun result h _ => ⟨_, (Except.ok.inj h).symm, nofun, nofun, nofun⟩
    }
  · rw [apply_of_ne_count hcount]
    cases hfind : column.find? Value.isForeign with
    | some foreign =>
        exact {
          count := fun h => absurd h hcount
          error_iff := by
            intro e
            rw [exists_foreign_iff, hfind, Except.error.injEq]
            simp only [Option.some.injEq, exists_eq_left', eq_comm, and_iff_right hcount]
          empty_iff := by
            refine iff_of_false nofun fun h => ?_
            -- The value that is no number is no null either.
            have hnull := h.2 foreign (List.mem_of_find?_eq_some hfind)
            have hforeign := List.find?_some hfind
            rw [Value.isForeign_eq, hnull] at hforeign
            exact Bool.false_ne_true hforeign
          single := fun _ h => absurd h nofun
        }
    | none =>
        have hforeign : ∀ value ∈ column, value.isForeign = false := fun value hvalue =>
          Bool.eq_false_iff.mpr (List.find?_eq_none.mp hfind value hvalue)
        have herror : ∀ e, ¬ ∃ before value after, column = before ++ value :: after ∧
            (∀ earlier ∈ before, earlier.isForeign = false) ∧ value.isForeign = true ∧
              e = EvalError.nonNumeric aggregator value := by
          intro e h
          rcases exists_foreign_iff.mp h with ⟨value, hvalue, _⟩
          rw [hfind] at hvalue
          cases hvalue
        rcases fold?_cases hcount hforeign with ⟨hnulls, hnone⟩ | ⟨hsome, value, hvalue, hwhat⟩
        · rw [hnone]
          exact {
            count := fun h => absurd h hcount
            error_iff := fun e => iff_of_false nofun fun h => herror e h.2
            empty_iff := iff_of_true rfl ⟨hcount, hnulls⟩
            single := fun result h hne => absurd (Except.ok.inj h).symm hne
          }
        · rw [hvalue]
          exact {
            count := fun h => absurd h hcount
            error_iff := fun e => iff_of_false nofun fun h => herror e h.2
            empty_iff := iff_of_false nofun fun h => hsome h.2
            single := fun result h _ => ⟨value, (Except.ok.inj h).symm, hwhat⟩
          }

end Aggregator

/-! ## Reports -/

open Consultation

namespace Engine

/-- What a rule adds to the column: the value of its only output cell, brought
    under the only output clause. -/
def Contributes (engine : Engine) (table : Table) (context : Context) (row : Row)
    (value : Value) : Prop :=
  ∃ clause cell raw, table.outputs = [clause] ∧ row.rule.outputs = [cell] ∧
    engine.evaluator.output cell context = .ok raw ∧ engine.convert clause raw = .ok value

variable {engine : Engine} {table : Table} {context : Context}

/-- The results of rules have the column that the rules contribute to. -/
theorem exists_results_of_contributes {clause : Clause .output} (hclause : table.outputs = [clause])
    {rows : List Row} {column : List Value}
    (h : List.Forall₂ (engine.Contributes table context) rows column) :
    ∃ candidates results, (Candidate.ofRows context rows).run engine.reply = .ok candidates ∧
      (Candidate.results table.outputs candidates).run engine.reply = .ok results ∧
      candidates.map Candidate.row = rows ∧ (⟨results⟩ : Result).column clause.name = column := by
  induction h with
  | nil => exact ⟨[], [], rfl, rfl, rfl, rfl⟩
  | @cons row value rows column hfirst _ ih =>
      rcases ih with ⟨candidates, results, hcandidates, hresults, hrows, hcolumn⟩
      rcases hfirst with ⟨clause', cell, raw, hclause', houtputs, houtput, hconvert⟩
      rw [hclause, List.cons.injEq] at hclause'
      rw [← hclause'.1] at hconvert
      have hyields : (Expression.outputs context row.rule.outputs).run engine.reply =
          .ok [raw] := by
        rw [run_outputs_eq_ok_iff, houtputs]
        exact .cons houtput .nil
      have hentries : (Clause.entries table.outputs [raw]).run engine.reply =
          .ok [(clause.name, value)] := by
        have hcoerce : (clause.coerce raw).run engine.reply = .ok value := hconvert
        simp only [hclause, Clause.entries, run_bind, hcoerce]
        rfl
      refine ⟨⟨row, [raw]⟩ :: candidates,
        ⟨some row.index, row.rule.id, [(clause.name, value)]⟩ :: results, ?_, ?_, ?_, ?_⟩
      · simp only [Candidate.ofRows, Candidate.ofRow, run_bind, hyields]
        show ((Candidate.ofRows context rows).run engine.reply >>= _) = _
        rw [hcandidates]
        rfl
      · simp only [Candidate.results, run_bind, hentries]
        show ((Candidate.results table.outputs candidates).run engine.reply >>= _) = _
        rw [hresults]
        rfl
      · rw [List.map_cons, hrows]
      · -- The name of the clause is found in the entry of the rule.
        have hget : RuleResult.get? ⟨some row.index, row.rule.id, [(clause.name, value)]⟩
            clause.name = some value := by
          simp only [RuleResult.get?, List.find?_cons, beq_self_eq_true, Option.map_some]
        simp only [Result.column, List.filterMap_cons, hget]
        exact congrArg (List.cons value) hcolumn

/-- A table with an aggregator reports what becomes of the column that its matching
    rules contribute to, and all of these rules count. -/
theorem folds_of_contributes (engine : Engine) (table : Table) (supplied : Variables)
    {aggregator : Aggregator} {context : Context} {matched : List Row} {column : List Value}
    (haggregator : table.aggregator = some aggregator)
    (hcontext : (Context.ofInputs table.inputs supplied).run engine.reply = .ok context)
    (hmatched : (Row.matching table.inputs context table.rows).run engine.reply = .ok matched)
    (hcolumn : List.Forall₂ (engine.Contributes table context) matched column) :
    ∃ clause answer, table.outputs = [clause] ∧ aggregator.Folds clause.name column answer ∧
      engine.report table supplied =
        answer.map fun result => ⟨result, matched.map Row.index, matched.map Row.index⟩ := by
  have hfolds : table.aggregator ≠ none := by
    rw [haggregator]
    exact Option.some_ne_none aggregator
  rcases List.length_eq_one_iff.mp (table.valid.single_output hfolds) with ⟨clause, hclause⟩
  refine ⟨clause, _, hclause, aggregator.folds_apply clause.name column, ?_⟩
  rcases exists_results_of_contributes hclause hcolumn with
    ⟨candidates, results, hcandidates, hresults, hrows, hvalues⟩
  -- An aggregator goes with COLLECT only, so all rules that match count.
  have hselect : (table.policy.select table.outputs context matched).run engine.reply =
      .ok candidates := by
    rw [table.valid.collects hfolds]
    exact hcandidates
  have hfinish : table.finish results = aggregator.apply clause.name column := by
    simp only [Table.finish, haggregator, hclause, hvalues]
  have hplaces : (candidates.map fun candidate => candidate.row.index) = matched.map Row.index := by
    rw [← hrows, List.map_map]
    rfl
  have hchosen : (table.chosen context).run engine.reply = .ok (matched, candidates) := by
    simp only [Table.chosen, run_bind, hmatched]
    show ((table.policy.select table.outputs context matched).run engine.reply >>= _) = _
    rw [hselect]
    rfl
  -- With every stage known, the evaluation is gone through from the first to the last.
  rw [run_report, hcontext]
  show ((table.chosen context).run engine.reply >>= _) = _
  rw [hchosen]
  show ((Candidate.results table.outputs candidates).run engine.reply >>= _) = _
  rw [hresults]
  show table.reported matched candidates results = _
  rw [Table.reported, hfinish, hplaces]
  cases aggregator.apply clause.name column with
  | ok result => rfl
  | error e => rfl

end Engine

/-! ## An instance -/

/-- Three rules, of which the second gives nothing to the least, and an output that
    is read from a text. -/
def Draft.leastFee : Draft where
  id := "least fee"
  outputs := [{ name := "fee", typeName := some "double" }]
  rules := [⟨none, [], [⟨"\"2.5\"", none⟩]⟩, ⟨none, [], [⟨"null", none⟩]⟩,
    ⟨none, [], [⟨"1", none⟩]⟩]
  policy := .collect
  aggregator := some .min

def Table.leastFee : Table := ⟨.leastFee, Draft.valid_of_fault?_eq_none (by decide +kernel)⟩

/-- The least of the two fees, which belongs to no rule. -/
def Report.leastFee : Report where
  result := ⟨[⟨none, none, [("fee", .float (.ofBits 0x3FF0000000000000))]⟩]⟩
  matched := [0, 1, 2]
  selected := [0, 1, 2]

theorem Engine.folds_leastFee :
    let context : Context := .ofVariables ∅
    let column : List Value :=
      [.float (.ofBits 0x4004000000000000), .null, .float (.ofBits 0x3FF0000000000000)]
    Table.leastFee.aggregator = some .min ∧
      (Context.ofInputs Table.leastFee.inputs ∅).run standard.reply = .ok context ∧
      (Row.matching Table.leastFee.inputs context Table.leastFee.rows).run standard.reply =
        .ok Table.leastFee.rows ∧
      List.Forall₂ (standard.Contributes .leastFee context) Table.leastFee.rows column ∧
      standard.report .leastFee ∅ = .ok .leastFee ∧
      Aggregator.min.Folds "fee" column (.ok Report.leastFee.result) := by
  intro context column
  have hcolumn : List.Forall₂ (standard.Contributes .leastFee context) Table.leastFee.rows column :=
    .cons ⟨_, _, .string "2.5", rfl, rfl, by decide +kernel, by decide +kernel⟩
      (.cons ⟨_, _, .null, rfl, rfl, by decide +kernel, by decide +kernel⟩
        (.cons ⟨_, _, .int 1, rfl, rfl, by decide +kernel, by decide +kernel⟩ .nil))
  have hleast : standard.report .leastFee ∅ = .ok .leastFee := by decide +kernel
  rcases folds_of_contributes standard .leastFee ∅ rfl rfl rfl hcolumn with
    ⟨clause, answer, hclause, hfolds, hreport⟩
  -- The report tells which answer it was made of.
  have hanswer : answer = .ok Report.leastFee.result := by
    rw [hleast] at hreport
    cases answer with
    | ok result => exact congrArg Except.ok (congrArg Report.result (Except.ok.inj hreport)).symm
    | error e => cases hreport
  rw [hanswer, ← List.singleton_inj.mp hclause] at hfolds
  exact ⟨rfl, rfl, rfl, hcolumn, hleast, hfolds⟩

end Decision
