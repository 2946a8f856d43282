import Decision.Proofs.Evaluation.Composition
import Decision.Proofs.Evaluation.Contexts

/-!
# Errors That Name No Rules

Where an error comes from if it has the labels of rules in it.

Two errors name rules: several of them match where one may, or two that match
have different outputs. Both come from a policy. In every other stage of an
evaluation an error is about a clause, a value or a cell, and it stays the same
when the rules of a table get other numbers.

That a stage names no rules is said of the consultation and not of an outcome.
So it holds for all replies, and it goes from the parts of a stage to the whole.
What is left is the policy: an evaluation fails with an error that names rules
exactly if its policy does.

## Main definitions

* `EvalError.labels`: The labels in an error.
* `Consultation.Unlabelled`: An evaluation whose errors have none.

## Theorems

* `unlabelled_bind`: Two evaluations that name no rules, one after the other.
* `unlabelled_coerce`: A value that is brought under its clause.
* `unlabelled_bindInputs` to `unlabelled_results`: The stages that name no rules.
* `report_eq_error_iff_of_labels`: Errors that name rules come from the policy.
-/

namespace Decision

/-- The labels of the rules that an error names. -/
def EvalError.labels : EvalError → List String
  | .multipleMatches rules => rules
  | .conflictingOutputs first second => [first, second]
  | _ => []

namespace Consultation

variable {α β : Type}

/-- Whatever the replies are, an error names no rule. -/
def Unlabelled (c : Consultation α) : Prop :=
  ∀ reply e, c.run reply = .error e → e.labels = []

theorem unlabelled_pure (a : α) : (pure a : Consultation α).Unlabelled :=
  fun _ _ h => absurd h nofun

theorem unlabelled_ask {call : Call} {next : call.Reply → Consultation α}
    (h : ∀ reply, (next reply).Unlabelled) : (ask call next).Unlabelled :=
  fun reply e he => h (reply call) reply e he

theorem unlabelled_bind {c : Consultation α} {next : α → Consultation β} (h : c.Unlabelled)
    (hnext : ∀ a, (next a).Unlabelled) : (c >>= next).Unlabelled := by
  intro reply e he
  rw [run_bind] at he
  cases hfirst : c.run reply with
  | ok a =>
      rw [hfirst] at he
      exact hnext a reply e he
  | error first =>
      rw [hfirst] at he
      rw [← Except.error.inj he]
      exact h reply first hfirst

theorem unlabelled_ofExpression (answer : Except ExpressionError α) :
    (ofExpression answer).Unlabelled := by
  intro _ e he
  cases answer with
  | ok a => exact absurd he nofun
  | error reason =>
      have hreason : EvalError.expression reason = e := Except.error.inj he
      rw [← hreason]
      rfl

theorem unlabelled_condition (cell : Expression) (value : Value) (context : Context) :
    (condition cell value context).Unlabelled := unlabelled_ask unlabelled_ofExpression

theorem unlabelled_output (cell : Expression) (context : Context) :
    (output cell context).Unlabelled := unlabelled_ask unlabelled_ofExpression

theorem unlabelled_fail {e : EvalError} (h : e.labels = []) :
    (fail e : Consultation α).Unlabelled := by
  intro _ e' he
  rw [← Except.error.inj he]
  exact h

/-! ## Stages -/

theorem unlabelled_coerce {role : Role} (clause : Clause role) (raw : Value) :
    (clause.coerce raw).Unlabelled := by
  unfold Clause.coerce
  cases clause.typeName with
  | none => exact unlabelled_pure raw
  | some typeName =>
      dsimp only
      by_cases hnull : raw.isNull = true
      · rw [if_pos hnull]
        exact unlabelled_pure raw
      · rw [if_neg hnull]
        -- Both ways to fail are about the clause and its type.
        refine unlabelled_ask fun known => ?_
        cases known with
        | none => exact unlabelled_fail rfl
        | some converter =>
            refine unlabelled_ask fun answer => ?_
            cases answer with
            | ok value => exact unlabelled_pure value
            | error reason => exact unlabelled_fail rfl

theorem compositional_unlabelled : Compositional Unlabelled where
  of_pure := unlabelled_pure
  of_bind := unlabelled_bind
  of_condition := unlabelled_condition
  of_output := unlabelled_output

theorem unlabelled_bindInputs (inputs : List (Clause .input)) (context : Context) :
    (context.bindInputs inputs).Unlabelled :=
  compositional_unlabelled.of_bindInputs (fun clause _ => unlabelled_coerce clause) context

theorem unlabelled_matching (inputs : List (Clause .input)) (context : Context)
    (rows : List Row) : (Row.matching inputs context rows).Unlabelled :=
  compositional_unlabelled.of_matching inputs context rows

theorem unlabelled_outputs (context : Context) (cells : List Expression) :
    (Expression.outputs context cells).Unlabelled :=
  compositional_unlabelled.of_outputs context cells

theorem unlabelled_ofRows (context : Context) (rows : List Row) :
    (Candidate.ofRows context rows).Unlabelled := compositional_unlabelled.of_ofRows context rows

theorem unlabelled_results (clauses : List (Clause .output)) (candidates : List Candidate) :
    (Candidate.results clauses candidates).Unlabelled :=
  compositional_unlabelled.of_results (fun clause _ => unlabelled_coerce clause) candidates

end Consultation

/-! ## Reports -/

open Consultation

/-- Folding a column names no rule. -/
theorem Table.labels_of_finish {table : Table} {results : List RuleResult} {e : EvalError}
    (h : table.finish results = .error e) : e.labels = [] := by
  unfold finish Aggregator.apply at h
  split at h
  · split at h
    · exact absurd h nofun
    · dsimp only at h
      split at h
      · rw [← Except.error.inj h]
        rfl
      · exact absurd h nofun
  · exact absurd h nofun

/-- An error that names rules comes from the policy, after the inputs were bound
    and the rules matched. -/
theorem Engine.report_eq_error_iff_of_labels {engine : Engine} {table : Table}
    {supplied : Variables} {e : EvalError} (h : e.labels ≠ []) :
    engine.report table supplied = .error e ↔
      ∃ context matched, (Context.ofInputs table.inputs supplied).run engine.reply = .ok context ∧
        (Row.matching table.inputs context table.rows).run engine.reply = .ok matched ∧
        (table.policy.select table.outputs context matched).run engine.reply = .error e := by
  simp only [report, Table.consult, run_bind]
  constructor
  · intro he
    rcases bind_eq_error_iff.mp he with he | ⟨context, hcontext, he⟩
    · exact absurd (unlabelled_bindInputs _ _ _ e he) h
    rcases bind_eq_error_iff.mp he with he | ⟨matched, hmatched, he⟩
    · exact absurd (unlabelled_matching _ _ _ _ e he) h
    rcases bind_eq_error_iff.mp he with he | ⟨selected, _, he⟩
    · exact ⟨context, matched, hcontext, hmatched, he⟩
    -- After the policy has decided, no rule is named any more.
    rcases bind_eq_error_iff.mp he with he | ⟨results, _, he⟩
    · exact absurd (unlabelled_results _ _ _ e he) h
    rcases bind_eq_error_iff.mp he with he | ⟨result, _, he⟩
    · exact absurd (Table.labels_of_finish he) h
    · cases he
  · rintro ⟨context, matched, hcontext, hmatched, hselect⟩
    rw [hcontext]
    show ((Row.matching table.inputs context table.rows).run engine.reply >>= _) = _
    rw [hmatched]
    show ((table.policy.select table.outputs context matched).run engine.reply >>= _) = _
    rw [hselect]
    rfl

end Decision
