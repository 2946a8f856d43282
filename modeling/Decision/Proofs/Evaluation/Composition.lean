import Decision.Evaluation.Engine

/-!
# From the Parts to Every Stage

A property of consultations that is known of the parts, for all stages at once.

The stages of an evaluation are put together by doing one thing after another.
Whatever is said of all replies can be carried along: if it holds of a value
that is there already, goes from two consultations to the one after the other,
and holds of the questions about cells, then it holds of every stage that has
only such questions in it. Bringing a value under its clause is the one part
that properties may differ on, so the stages that do it ask for it clause by
clause. Policies may fail of their own accord, and whether that keeps the
property is asked too.

## Main definitions

* `Compositional`: A property goes from the parts to the whole.

## Theorems

* `Compositional.of_matching`, `Compositional.of_outputs`, `Compositional.of_ofRows`:
  The stages with questions about cells only.
* `Compositional.of_bindInputs`, `Compositional.of_results`: The stages with
  conversions.
* `Compositional.of_select`: The policies.
-/

namespace Decision

namespace Consultation

/-- A property that goes from the parts of a consultation to the whole, and that the
    questions about cells have. -/
structure Compositional (P : {α : Type} → Consultation α → Prop) : Prop where
  of_pure : ∀ {α : Type} (a : α), P (pure a : Consultation α)
  of_bind : ∀ {α β : Type} {c : Consultation α} {next : α → Consultation β}, P c →
    (∀ a, P (next a)) → P (c >>= next)
  of_condition : ∀ cell value context, P (condition cell value context)
  of_output : ∀ cell context, P (output cell context)

namespace Compositional

variable {P : {α : Type} → Consultation α → Prop} (h : Compositional P)

include h

/-- What is done with a value without asking anyone keeps the property. -/
theorem of_map {α β : Type} {c : Consultation α} (hc : P c) (f : α → β) :
    P (c >>= fun a => pure (f a)) := h.of_bind hc fun a => h.of_pure (f a)

/-! ## Cells -/

theorem of_allHold (context : Context) (clauses : List (Clause .input))
    (entries : List InputEntry) : P (InputEntry.allHold context clauses entries) := by
  induction clauses generalizing entries with
  | nil =>
      simp only [InputEntry.allHold]
      exact h.of_pure true
  | cons clause clauses ih =>
      cases entries with
      | nil =>
          simp only [InputEntry.allHold]
          exact h.of_pure true
      | cons entry entries =>
          cases entry with
          | any =>
              simp only [InputEntry.allHold]
              exact ih entries
          | test cell =>
              simp only [InputEntry.allHold]
              -- Whether the rule is left or gone on with depends on the answer.
              refine h.of_bind (h.of_condition cell _ context) fun holds => ?_
              cases holds with
              | true => exact ih entries
              | false => exact h.of_pure false

theorem of_matching (inputs : List (Clause .input)) (context : Context) (rows : List Row) :
    P (Row.matching inputs context rows) := by
  induction rows with
  | nil => exact h.of_pure []
  | cons row rows ih =>
      exact h.of_bind (h.of_allHold context inputs row.rule.inputs) fun holds => h.of_map ih _

theorem of_outputs (context : Context) (cells : List Expression) :
    P (Expression.outputs context cells) := by
  induction cells with
  | nil => exact h.of_pure []
  | cons cell cells ih => exact h.of_bind (h.of_output cell context) fun value => h.of_map ih _

theorem of_ofRows (context : Context) (rows : List Row) : P (Candidate.ofRows context rows) := by
  induction rows with
  | nil => exact h.of_pure []
  | cons row rows ih =>
      have hrow : P (Candidate.ofRow context row) :=
        h.of_map (h.of_outputs context row.rule.outputs) _
      exact h.of_bind hrow fun candidate => h.of_map ih _

/-! ## Conversions -/

theorem of_bindInputs {inputs : List (Clause .input)}
    (hcoerce : ∀ clause ∈ inputs, ∀ raw, P (clause.coerce raw)) (context : Context) :
    P (context.bindInputs inputs) := by
  induction inputs generalizing context with
  | nil => exact h.of_pure context
  | cons clause clauses ih =>
      rw [List.forall_mem_cons] at hcoerce
      exact h.of_bind (hcoerce.1 _) fun value => ih hcoerce.2 _

theorem of_entries {clauses : List (Clause .output)}
    (hcoerce : ∀ clause ∈ clauses, ∀ raw, P (clause.coerce raw)) (raws : List Value) :
    P (Clause.entries clauses raws) := by
  induction clauses generalizing raws with
  | nil => exact h.of_pure []
  | cons clause clauses ih =>
      cases raws with
      | nil => exact h.of_pure []
      | cons raw raws =>
          rw [List.forall_mem_cons] at hcoerce
          exact h.of_bind (hcoerce.1 raw) fun value => h.of_map (ih hcoerce.2 raws) _

theorem of_results {clauses : List (Clause .output)}
    (hcoerce : ∀ clause ∈ clauses, ∀ raw, P (clause.coerce raw)) (candidates : List Candidate) :
    P (Candidate.results clauses candidates) := by
  induction candidates with
  | nil => exact h.of_pure []
  | cons candidate candidates ih =>
      exact h.of_bind (h.of_entries hcoerce candidate.outputs) fun entries => h.of_map ih _

/-! ## Policies -/

theorem of_select (hfail : ∀ e, P (fail e : Consultation (List Candidate))) (policy : HitPolicy)
    (clauses : List (Clause .output)) (context : Context) (matched : List Row) :
    P (policy.select clauses context matched) := by
  have hall := h.of_ofRows context matched
  cases policy with
  | unique =>
      match matched with
      | [] => exact hfail .noMatch
      | [only] => exact h.of_ofRows context [only]
      | first :: second :: others => exact hfail (.multipleMatches _)
  | first => exact h.of_ofRows context (matched.take 1)
  | collect => exact hall
  | ruleOrder => exact hall
  | any =>
      refine h.of_bind hall fun candidates => ?_
      cases candidates with
      | nil => exact h.of_pure []
      | cons head others =>
          simp only [Candidate.agreed]
          split
          · exact hfail _
          · exact h.of_pure [head]
  | priority => exact h.of_map hall _
  | outputOrder => exact h.of_map hall _

end Compositional

end Consultation

end Decision
