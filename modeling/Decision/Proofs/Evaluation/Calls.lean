import Decision.Proofs.Evaluation.Stages

/-!
# The Calls of an Evaluation

Which questions the evaluation of a table asks, and in which order.

The script of a table is written out in the order of the stages: the input
clauses, the cells of the rules up to the first that does not hold, the output
cells of the rules that the policy looks at, and the conversions of the rules
that count. `calls_eq_throughFirst` says that an evaluation asks exactly this
script, and stops after the first refusal.

A policy is taken apart for this. `HitPolicy.considered` is what it looks at,
and the output cells of no other rule are evaluated. `HitPolicy.verdict` is what
it decides once it has seen them; it can end the evaluation, but it asks
nothing, so a table where the policy is not satisfied has no conversions in its
script.

The tests of the script are about the bound values of the clauses, while the
evaluation looks the values up in the context by name. The two agree because no
two clauses of a table share a name.

## Main definitions

* `HitPolicy.considered`: The rules whose outputs a policy looks at.
* `HitPolicy.verdict`: The rules that count, once the outputs are known.
* `Engine.tests`: The questions about the input cells of a rule.
* `Engine.matched`: The rules that match.
* `Engine.script`: The questions of an evaluation that nobody refuses.
* `Engine.outcome`: The outcome of such an evaluation.

## Theorems

* `follows_select`: Selection is a look followed by a decision.
* `follows_consult`: An evaluation follows the script of its table.
* `output_of_quiet`: Where nothing is refused, the outputs are there.
* `mem_script_cases`: What the questions of a script are about.
* `calls_eq_throughFirst`: The calls are the script up to the first refusal.
-/

namespace Decision

open Consultation

namespace HitPolicy

/-- The rules whose outputs a policy looks at, among those that match. -/
def considered (policy : HitPolicy) (matched : List Row) : List Row :=
  match policy with
  | unique =>
      match matched with
      | [only] => [only]
      | _ => []
  | first => matched.take 1
  | any | priority | collect | ruleOrder | outputOrder => matched

/-- The rules that count, given those that match and the outputs of those that
    the policy looks at. -/
def verdict (policy : HitPolicy) (clauses : List (Clause .output)) (matched : List Row)
    (candidates : List Candidate) : Except EvalError (List Candidate) :=
  match policy with
  | unique =>
      match matched with
      | [] => .error .noMatch
      | [_] => .ok candidates
      | many => .error (.multipleMatches (many.map Row.label))
  | first | collect | ruleOrder => .ok candidates
  | any =>
      match candidates with
      | [] => .ok []
      | head :: others =>
          match others.find? fun other => other.outputs != head.outputs with
          | some other => .error (.conflictingOutputs head.row.label other.row.label)
          | none => .ok [head]
  | priority => .ok ((Candidate.byRank clauses candidates).take 1)
  | outputOrder => .ok (Candidate.byRank clauses candidates)

end HitPolicy

namespace Engine

variable (engine : Engine)

/-- The questions about the output cells of some rules. -/
def outputCalls (context : Context) (rows : List Row) : List Call :=
  rows.flatMap fun row => row.rule.outputs.map fun cell => .output cell context

theorem follows_agreed (candidates : List Candidate) (clauses : List (Clause .output))
    (matched : List Row) :
    Follows engine.reply (Candidate.agreed candidates) []
      (HitPolicy.any.verdict clauses matched candidates) := by
  cases candidates with
  | nil => exact follows_done (.ok [])
  | cons head others =>
      simp only [Candidate.agreed, HitPolicy.verdict]
      cases others.find? fun other => other.outputs != head.outputs with
      | none => exact follows_done (.ok [head])
      | some other => exact follows_done (.error _)

/-- A policy evaluates the outputs it looks at, and then decides without asking
    anyone. -/
theorem follows_select (policy : HitPolicy) (clauses : List (Clause .output)) (context : Context)
    (matched : List Row) :
    Follows engine.reply (policy.select clauses context matched)
      (outputCalls context (policy.considered matched))
      (policy.verdict clauses matched
        ((policy.considered matched).map (engine.candidate context))) := by
  have hall := engine.follows_ofRows context matched
  cases policy with
  | unique =>
      -- Only the number of matches decides whether outputs are looked at.
      match matched with
      | [] => exact follows_done (.error .noMatch)
      | [only] => exact engine.follows_ofRows context [only]
      | first :: second :: others => exact follows_done (.error (.multipleMatches _))
  | first => exact engine.follows_ofRows context (matched.take 1)
  | collect => exact hall
  | ruleOrder => exact hall
  | any => exact follows_bind_silent hall (engine.follows_agreed _ clauses matched)
  | priority =>
      exact follows_map hall fun candidates => (Candidate.byRank clauses candidates).take 1
  | outputOrder => exact follows_map hall fun candidates => Candidate.byRank clauses candidates

/-! ## Tables -/

variable (table : Table) (supplied : Variables)

/-- The questions about the input cells of a rule, each about the bound value of
    its clause. -/
def tests (rule : Rule) : List Call :=
  InputEntry.tests (engine.context table.inputs supplied) (engine.bound supplied) table.inputs
    rule.inputs

/-- The rules of a table that match: those whose cells are all answered true. -/
def matched : List Row :=
  table.rows.filter fun row => engine.grants (engine.tests table supplied row.rule)

/-- The rules that the policy of a table looks at, with their outputs. -/
def candidates : List Candidate :=
  (table.policy.considered (engine.matched table supplied)).map
    (engine.candidate (engine.context table.inputs supplied))

/-- The rules that count. -/
def selected : Except EvalError (List Candidate) :=
  table.policy.verdict table.outputs (engine.matched table supplied)
    (engine.candidates table supplied)

/-- The questions about the outputs of the rules that count. If the policy is not
    satisfied, no rule does. -/
def resultConversions : List Call :=
  match engine.selected table supplied with
  | .ok selected =>
      selected.flatMap fun candidate => engine.entryConversions table.outputs candidate.outputs
  | .error _ => []

/-- The questions that the evaluation of a table asks if none is refused. -/
def script : List Call :=
  engine.bindings table.inputs supplied
    ++ table.rows.flatMap (fun row => engine.asked (engine.tests table supplied row.rule))
    ++ outputCalls (engine.context table.inputs supplied)
      (table.policy.considered (engine.matched table supplied))
    ++ engine.resultConversions table supplied

/-- The outcome of evaluating a table if no question is refused. -/
def outcome : Except EvalError Report := do
  let selected ← engine.selected table supplied
  let result ← table.finish (selected.map (engine.ruleResult table.outputs))
  return {
    result := result
    matched := (engine.matched table supplied).map Row.index
    selected := selected.map fun candidate => candidate.row.index
  }

/-- An evaluation follows the script of its table. -/
theorem follows_consult :
    Follows engine.reply (table.consult supplied) (engine.script table supplied)
      (engine.outcome table supplied) := by
  have hvalue : ∀ clause ∈ table.inputs,
      (engine.context table.inputs supplied).input clause.name = engine.bound supplied clause :=
    fun clause hmem => engine.input_context table.valid.inputs_nodup supplied hmem
  have hselect : Follows engine.reply
      (table.policy.select table.outputs (engine.context table.inputs supplied)
        (engine.matched table supplied))
      (outputCalls (engine.context table.inputs supplied)
        (table.policy.considered (engine.matched table supplied)))
      (engine.selected table supplied) :=
    engine.follows_select table.policy table.outputs _ _
  rw [Table.consult, script, List.append_assoc, List.append_assoc]
  refine follows_bind (engine.follows_ofInputs table.inputs supplied) ?_
  refine follows_bind (engine.follows_matching hvalue table.rows) ?_
  rw [outcome, resultConversions]
  cases hselected : engine.selected table supplied with
  | error e =>
      -- The policy is not satisfied, and the rest of the evaluation is dropped.
      rw [hselected] at hselect
      simp only [List.append_nil]
      exact follows_bind_error hselect
  | ok selected =>
      rw [hselected] at hselect
      refine follows_bind hselect ?_
      exact follows_bind_silent (engine.follows_results table.outputs selected)
        (follows_done_bind _ _)

/-- Where nothing is refused, the outputs are there that the policy looks at. -/
theorem output_of_quiet {engine : Engine} {table : Table} {supplied : Variables}
    (hquiet : ∀ call ∈ engine.script table supplied, call.refusedBy engine.reply = false)
    {row : Row} (hrow : row ∈ table.policy.considered (engine.matched table supplied))
    {cell : Expression} (hcell : cell ∈ row.rule.outputs) :
    engine.evaluator.output cell (engine.context table.inputs supplied) =
      .ok (engine.produced (engine.context table.inputs supplied) cell) := by
  have hcall : Call.output cell (engine.context table.inputs supplied) ∈
      engine.script table supplied := by
    simp only [script, List.mem_append]
    refine Or.inl (Or.inr (List.mem_flatMap.mpr ⟨row, hrow, ?_⟩))
    exact List.mem_map.mpr ⟨cell, hcell, rfl⟩
  have hanswered : (!(engine.evaluator.output cell
      (engine.context table.inputs supplied)).isOk) = false := hquiet _ hcall
  unfold produced
  cases hreply : engine.evaluator.output cell (engine.context table.inputs supplied) with
  | ok value => rfl
  | error reason =>
      rw [hreply] at hanswered
      exact absurd hanswered.symm Bool.false_ne_true

/-- A question about a value under a clause asks what the type is or has the value
    converted by what the type stands for. -/
theorem mem_conversions_cases {engine : Engine} {role : Role} {clause : Clause role}
    {raw : Value} {call : Call} (h : call ∈ engine.conversions clause raw) :
    ∃ typeName, clause.typeName = some typeName ∧
      (call = .lookup typeName ∨ ∃ converter, engine.converter? typeName = some converter ∧
        call = .convert typeName converter raw) := by
  unfold conversions at h
  cases htype : clause.typeName with
  | none =>
      rw [htype] at h
      exact absurd h List.not_mem_nil
  | some typeName =>
      simp only [htype] at h
      refine ⟨typeName, rfl, ?_⟩
      split at h
      · exact absurd h List.not_mem_nil
      · cases hconverter : engine.converter? typeName with
        | none =>
            rw [hconverter] at h
            exact Or.inl (List.mem_singleton.mp h)
        | some converter =>
            rw [hconverter] at h
            rcases List.mem_cons.mp h with hlookup | hconvert
            · exact Or.inl hlookup
            · exact Or.inr ⟨converter, rfl, List.mem_singleton.mp hconvert⟩

/-- Every question is about a value under a clause or about a cell, and all cells are
    evaluated in one context. -/
theorem mem_script_cases {engine : Engine} {table : Table} {supplied : Variables} {call : Call}
    (h : call ∈ engine.script table supplied) :
    (∃ role, ∃ clause : Clause role, ∃ raw, call ∈ engine.conversions clause raw) ∨
      (∃ clause ∈ table.inputs, ∃ cell, call = .condition cell (engine.bound supplied clause)
        (engine.context table.inputs supplied)) ∨
      ∃ cell, call = .output cell (engine.context table.inputs supplied) := by
  simp only [script, List.mem_append] at h
  rcases h with ((hbind | htest) | houtput) | hconvert
  · rcases List.mem_flatMap.mp hbind with ⟨clause, _, hcall⟩
    exact Or.inl ⟨_, clause, _, hcall⟩
  · rcases List.mem_flatMap.mp htest with ⟨row, _, hcall⟩
    rcases List.mem_filterMap.mp (mem_of_mem_throughFirst hcall) with
      ⟨⟨clause, entry⟩, hpair, hquestion⟩
    cases entry with
    | any => exact absurd hquestion nofun
    | test cell =>
        exact Or.inr (Or.inl ⟨clause, (List.of_mem_zip hpair).1, cell,
          (Option.some.inj hquestion).symm⟩)
  · rcases List.mem_flatMap.mp houtput with ⟨row, _, hcall⟩
    rcases List.mem_map.mp hcall with ⟨cell, _, rfl⟩
    exact Or.inr (Or.inr ⟨cell, rfl⟩)
  · unfold resultConversions at hconvert
    split at hconvert
    · rcases List.mem_flatMap.mp hconvert with ⟨candidate, _, hcall⟩
      rcases List.mem_flatMap.mp hcall with ⟨⟨clause, raw⟩, _, hconversion⟩
      exact Or.inl ⟨_, clause, raw, hconversion⟩
    · exact absurd hconvert List.not_mem_nil

/-- An evaluation asks the questions of the script in their order, and none after
    the first that is refused. -/
theorem calls_eq_throughFirst :
    engine.calls table supplied =
      throughFirst (Call.refusedBy engine.reply) (engine.script table supplied) :=
  (engine.follows_consult table supplied).calls_eq

theorem mem_script_of_mem_calls {engine : Engine} {table : Table} {supplied : Variables}
    {call : Call} (h : call ∈ engine.calls table supplied) :
    call ∈ engine.script table supplied := by
  rw [calls_eq_throughFirst] at h
  exact mem_of_mem_throughFirst h

end Engine

end Decision
