import Decision.Proofs.Evaluation.Account
import Decision.Proofs.Evaluation.Order

/-!
# Where Entries Come From

From an entry of a report back to the cell that produced its value.

`Engine.Accounts` tells which rule a result belongs to, and says nothing about
the values in it. They have a history of two steps. The cells of the rule
produce values in the context of the evaluation, and each of these values is
brought under its clause. `Engine.Yields` and `Engine.Entered` are the steps,
and both have one place for every clause: a value that is left out, or stands
under the clause of another, has no derivation.

## Main definitions

* `Engine.Yields`: Cells yield values.
* `Engine.Entered`: Entries are made of values under their clauses.
* `RuleResult.ComesFrom`: A result is made from the cells of a rule.

## Theorems

* `run_outputs_eq_ok_iff`: The outputs of some cells are what each of them
  produces.
* `forall₂_comesFrom`: Every result of a report comes from the rule at its place.
-/

namespace Decision

open Consultation

namespace Engine

/-- Some cells yield some values in a context, each cell one. -/
def Yields (engine : Engine) (context : Context) (cells : List Expression)
    (raws : List Value) : Prop :=
  List.Forall₂ (fun cell raw => engine.evaluator.output cell context = .ok raw) cells raws

/-- Some entries hold the values that produced ones have under their clauses, one
    for each clause and under its name. -/
inductive Entered (engine : Engine) :
    List (Clause .output) → List Value → List (String × Value) → Prop where
  | nil : Entered engine [] [] []
  | cons {clause : Clause .output} {clauses : List (Clause .output)} {raw value : Value}
      {raws : List Value} {entries : List (String × Value)}
      (h : engine.convert clause raw = .ok value) (rest : Entered engine clauses raws entries) :
      Entered engine (clause :: clauses) (raw :: raws) ((clause.name, value) :: entries)

end Engine

/-- A result is made from the cells of a rule: it has the place and the id of the
    rule, and entries for what the output cells produce. -/
structure RuleResult.ComesFrom (engine : Engine) (table : Table) (context : Context) (row : Row)
    (result : RuleResult) : Prop where
  index_eq : result.index = some row.index
  id_eq : result.id = row.rule.id
  entered : ∃ raws, engine.Yields context row.rule.outputs raws ∧
    engine.Entered table.outputs raws result.entries

namespace Engine

variable {engine : Engine} {table : Table} {supplied : Variables}

theorem run_output_eq_ok_iff {context : Context} {cell : Expression} {raw : Value} :
    (output cell context).run engine.reply = .ok raw ↔
      engine.evaluator.output cell context = .ok raw := mapError_eq_ok_iff

/-- The outputs of some cells are there if each of them produces one. -/
theorem run_outputs_eq_ok_iff {context : Context} {cells : List Expression} {raws : List Value} :
    (Expression.outputs context cells).run engine.reply = .ok raws ↔
      engine.Yields context cells raws := by
  induction cells generalizing raws with
  | nil =>
      constructor
      · intro h
        rw [← Except.ok.inj h]
        exact .nil
      · intro h
        cases h
        rfl
  | cons cell cells ih =>
      simp only [Expression.outputs, run_bind]
      constructor
      · intro h
        rcases exists_of_bind_eq_ok h with ⟨raw, hraw, hrest⟩
        rcases exists_of_bind_eq_ok hrest with ⟨others, hothers, hraws⟩
        rw [← Except.ok.inj hraws]
        exact .cons (run_output_eq_ok_iff.mp hraw) (ih.mp hothers)
      · intro h
        cases h with
        | cons hraw hrest =>
            rw [run_output_eq_ok_iff.mpr hraw, ih.mpr hrest]
            rfl

theorem Entered.names {clauses : List (Clause .output)} {raws : List Value}
    {entries : List (String × Value)} (h : engine.Entered clauses raws entries) :
    entries.map Prod.fst = clauses.map Clause.name := by
  induction h with
  | nil => rfl
  | cons _ _ ih => rw [List.map_cons, List.map_cons, ih]

/-- At the place of a clause stands its value, brought there from the produced value at
    the same place. -/
theorem Entered.at_place {clauses : List (Clause .output)} {raws : List Value}
    {entries : List (String × Value)} (h : engine.Entered clauses raws entries) {place : Nat}
    {clause : Clause .output} (hclause : clauses[place]? = some clause) :
    ∃ raw value, raws[place]? = some raw ∧ entries[place]? = some (clause.name, value) ∧
      engine.convert clause raw = .ok value := by
  induction h generalizing place with
  | nil => exact absurd hclause nofun
  | cons hconvert _ ih =>
      cases place with
      | zero =>
          cases hclause
          exact ⟨_, _, rfl, rfl, hconvert⟩
      | succ place => exact ih hclause

/-- Values that can all be brought under their clauses are entered there. -/
theorem entered_entries {clauses : List (Clause .output)} {raws : List Value}
    (hlength : raws.length = clauses.length)
    (hconvert : ∀ pair ∈ clauses.zip raws, ∃ value, engine.convert pair.1 pair.2 = .ok value) :
    engine.Entered clauses raws (engine.entries clauses raws) := by
  induction clauses generalizing raws with
  | nil =>
      rw [List.length_eq_zero_iff.mp hlength]
      exact .nil
  | cons clause clauses ih =>
      cases raws with
      | nil => exact absurd hlength.symm (Nat.succ_ne_zero _)
      | cons raw raws =>
          rw [List.zip_cons_cons, List.forall_mem_cons] at hconvert
          rcases hconvert.1 with ⟨value, hvalue⟩
          rw [entries, List.zipWith_cons_cons, coerced_of_convert hvalue]
          exact .cons hvalue (ih (Nat.succ.inj hlength) hconvert.2)

/-- Where nothing is refused, a rule that counts matches, and its result comes from
    it. -/
theorem comesFrom_ruleResult
    (hquiet : ∀ call ∈ engine.script table supplied, call.refusedBy engine.reply = false)
    {selected : List Candidate} (hselected : engine.selected table supplied = .ok selected)
    {candidate : Candidate} (hcandidate : candidate ∈ selected) :
    candidate.row ∈ engine.matched table supplied ∧
      (engine.ruleResult table.outputs candidate).ComesFrom engine table
        (engine.context table.inputs supplied) candidate.row := by
  have hconvert := convert_of_selected engine hquiet hselected candidate hcandidate
  rcases List.mem_map.mp (HitPolicy.mem_of_mem_verdict hselected hcandidate) with ⟨row, hrow, rfl⟩
  have hmatched : row ∈ engine.matched table supplied := HitPolicy.mem_of_mem_considered hrow
  -- The policy has looked at the rule, so its cells were asked and have answered.
  have hyields : engine.Yields (engine.context table.inputs supplied) row.rule.outputs
      (engine.candidate (engine.context table.inputs supplied) row).outputs := by
    rw [Yields, candidate, List.forall₂_map_right_iff, List.forall₂_same]
    exact fun cell hcell => output_of_quiet hquiet hrow hcell
  exact ⟨hmatched, rfl, rfl, _, hyields,
    entered_entries (engine.length_outputs_candidate (List.mem_filter.mp hmatched).1) hconvert⟩

/-- Without an aggregator the results of a report come from the rules that count,
    one from each and in their order. -/
theorem forall₂_comesFrom (plain : table.aggregator = none) {report : Report}
    (h : engine.report table supplied = .ok report) :
    List.Forall₂ (fun place result => ∃ row ∈ engine.matched table supplied, row.index = place ∧
        result.ComesFrom engine table (engine.context table.inputs supplied) row)
      report.selected report.result.rules := by
  rcases (engine.report_eq_ok_iff table supplied).mp h with ⟨hquiet, houtcome⟩
  rcases (engine.outcome_eq_ok_iff table supplied).mp houtcome with
    ⟨selected, hselected, hresult, _, hplaces⟩
  rw [Table.finish_of_plain plain] at hresult
  rw [hplaces, ← Except.ok.inj hresult, List.forall₂_map_left_iff, List.forall₂_map_right_iff,
    List.forall₂_same]
  intro candidate hcandidate
  rcases comesFrom_ruleResult hquiet hselected hcandidate with ⟨hmatched, hcomes⟩
  exact ⟨candidate.row, hmatched, rfl, hcomes⟩

end Engine

end Decision
