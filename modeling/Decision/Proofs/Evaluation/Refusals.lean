import Decision.Proofs.Evaluation.Calls
import Decision.Proofs.Evaluation.Composition

/-!
# Errors That Come From a Refusal

Which error an evaluation fails with when it is refused something.

A refusal ends an evaluation, and the error tells what was refused. If nobody
knows a type or a value cannot be converted, it names the clause, the type and
the value as they were asked about, and hands on the reason. If a cell has no
answer, the reason is all there is. So the error can be read off the question
and the reply, except for the clause: a type name alone does not tell which of
the clauses that declare it was meant. `Table.Declares` says that it was one of
them.

Again this is said of a consultation and all replies, and goes from the parts to
the whole.

## Main definitions

* `Table.Declares`: A clause of a table declares a type.
* `EvalError.Explains`: What an error says about a refused question.
* `Consultation.Explained`: Every refusal ends in an error that explains it.

## Theorems

* `explained_coerce`: A value that is brought under its clause.
* `explained_consult`: The evaluation of a table.
-/

namespace Decision

/-- A clause of a table, in one of the two roles, has a name and declares a type. -/
def Table.Declares (table : Table) : Role → String → String → Prop
  | .input, name, typeName =>
      ∃ clause ∈ table.inputs, clause.name = name ∧ clause.typeName = some typeName
  | .output, name, typeName =>
      ∃ clause ∈ table.outputs, clause.name = name ∧ clause.typeName = some typeName

/-- An error says what was asked and how it was refused. The clause that it names
    meets what is asked of clauses. -/
def EvalError.Explains (declares : Role → String → String → Prop) (e : EvalError) :
    (call : Call) → call.Reply → Prop
  | .lookup typeName, _ =>
      ∃ role clause, declares role clause typeName ∧ e = .unknownType role clause typeName
  | .convert typeName _ value, reply =>
      ∃ role clause reason, declares role clause typeName ∧ reply = Except.error reason ∧
        e = .coercion role clause typeName value reason
  | .condition .., reply => ∃ reason, reply = Except.error reason ∧ e = .expression reason
  | .output .., reply => ∃ reason, reply = Except.error reason ∧ e = .expression reason

namespace Consultation

variable {α β : Type} {declares : Role → String → String → Prop}

/-- Whatever the replies are, a refused question ends the evaluation with an error
    that explains it. -/
def Explained (declares : Role → String → String → Prop) (c : Consultation α) : Prop :=
  ∀ reply, ∀ call ∈ c.calls reply, call.refusedBy reply = true →
    ∃ e, c.run reply = .error e ∧ e.Explains declares call (reply call)

theorem explained_done (outcome : Except EvalError α) : (done outcome).Explained declares :=
  fun _ _ hcall => absurd hcall List.not_mem_nil

theorem explained_bind {c : Consultation α} {next : α → Consultation β} (h : c.Explained declares)
    (hnext : ∀ a, (next a).Explained declares) : (c >>= next).Explained declares := by
  intro reply call hcall hrefused
  rw [calls_bind, List.mem_append] at hcall
  rw [run_bind]
  rcases hcall with hfirst | hsecond
  · -- The first consultation is refused something and fails.
    rcases h reply call hfirst hrefused with ⟨e, he, hexplains⟩
    rw [he]
    exact ⟨e, rfl, hexplains⟩
  · -- The second one asks only if the first has a value.
    cases hrun : c.run reply with
    | ok a =>
        rw [hrun] at hsecond
        exact hnext a reply call hsecond hrefused
    | error e =>
        rw [hrun] at hsecond
        exact absurd hsecond List.not_mem_nil

/-- A question whose refusal is explained at once, and after which nothing is left
    unexplained. -/
theorem explained_ask {call : Call} {next : call.Reply → Consultation α}
    (h : ∀ reply, call.isRefusal reply = true →
      ∃ e, next reply = fail e ∧ e.Explains declares call reply)
    (hnext : ∀ reply, (next reply).Explained declares) : (ask call next).Explained declares := by
  intro reply other hother hrefused
  rcases List.mem_cons.mp hother with rfl | hother
  · rcases h (reply other) hrefused with ⟨e, he, hexplains⟩
    exact ⟨e, by rw [run, he]; rfl, hexplains⟩
  · exact hnext (reply call) reply other hother hrefused

theorem explained_ofExpression (answer : Except ExpressionError α) :
    (ofExpression answer).Explained declares := explained_done _

theorem explained_condition (cell : Expression) (value : Value) (context : Context) :
    (condition cell value context).Explained declares := by
  refine explained_ask (fun reply hrefused => ?_) explained_ofExpression
  match reply with
  | .ok holds => exact absurd hrefused Bool.false_ne_true
  | .error reason => exact ⟨.expression reason, rfl, reason, rfl, rfl⟩

theorem explained_output (cell : Expression) (context : Context) :
    (output cell context).Explained declares := by
  refine explained_ask (fun reply hrefused => ?_) explained_ofExpression
  match reply with
  | .ok value => exact absurd hrefused Bool.false_ne_true
  | .error reason => exact ⟨.expression reason, rfl, reason, rfl, rfl⟩

theorem compositional_explained : Compositional (Explained declares) where
  of_pure := fun a => explained_done (.ok a)
  of_bind := explained_bind
  of_condition := explained_condition
  of_output := explained_output

/-! ## Stages -/

/-- The two questions about a value under its clause. -/
theorem explained_coerce {role : Role} {clause : Clause role}
    (hclause : ∀ typeName, clause.typeName = some typeName → declares role clause.name typeName)
    (raw : Value) : (clause.coerce raw).Explained declares := by
  unfold Clause.coerce
  cases htype : clause.typeName with
  | none => exact explained_done (.ok raw)
  | some typeName =>
      have hdeclares := hclause typeName htype
      dsimp only
      by_cases hnull : raw.isNull = true
      · rw [if_pos hnull]
        exact explained_done (.ok raw)
      · rw [if_neg hnull]
        refine explained_ask (fun known hrefused => ?_) fun known => ?_
        · match known with
          | some converter => exact absurd hrefused Bool.false_ne_true
          | none => exact ⟨_, rfl, role, clause.name, hdeclares, rfl⟩
        · match known with
          | none => exact explained_done _
          | some converter =>
              refine explained_ask (fun answer hrefused => ?_) fun answer => ?_
              · match answer with
                | .ok value => exact absurd hrefused Bool.false_ne_true
                | .error reason => exact ⟨_, rfl, role, clause.name, reason, hdeclares, rfl, rfl⟩
              · cases answer with
                | ok value => exact explained_done (.ok value)
                | error reason => exact explained_done _

/-- Whatever an evaluation is refused, it fails with an error that explains it. -/
theorem explained_consult (table : Table) (supplied : Variables) :
    (table.consult supplied).Explained table.Declares := by
  have h : Compositional (Explained table.Declares) := compositional_explained
  have hinputs : ∀ clause ∈ table.inputs, ∀ raw, (clause.coerce raw).Explained table.Declares :=
    fun clause hclause => explained_coerce fun _ htype => ⟨clause, hclause, rfl, htype⟩
  have houtputs : ∀ clause ∈ table.outputs, ∀ raw, (clause.coerce raw).Explained table.Declares :=
    fun clause hclause => explained_coerce fun _ htype => ⟨clause, hclause, rfl, htype⟩
  refine explained_bind (h.of_bindInputs hinputs _) fun context => ?_
  refine explained_bind (h.of_matching table.inputs context table.rows) fun matched => ?_
  refine explained_bind (h.of_select (fun e => explained_done (.error e)) _ _ _ _)
    fun selected => ?_
  refine explained_bind (h.of_results houtputs selected) fun results => ?_
  -- What is left asks nothing.
  exact explained_bind (explained_done _) fun result => explained_done (.ok _)

end Consultation

/-- An engine that refuses a question makes the evaluation fail with an error that
    explains the refusal. -/
theorem Engine.exists_error_of_refused {engine : Engine} {table : Table} {supplied : Variables}
    {call : Call} (hcall : call ∈ engine.calls table supplied)
    (hrefused : call.refusedBy engine.reply = true) :
    ∃ e, engine.report table supplied = .error e ∧
      e.Explains table.Declares call (engine.reply call) :=
  Consultation.explained_consult table supplied engine.reply call hcall hrefused

end Decision
