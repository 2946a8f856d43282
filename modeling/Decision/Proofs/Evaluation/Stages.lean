import Decision.Evaluation.Engine
import Decision.Proofs.Evaluation.Script

/-!
# The Stages of an Evaluation

What each stage asks, and what comes of it if nobody refuses.

Every stage has a script, a value, or both, given by plain functions of the
engine: no tree, no early end. The functions are total. Where a reply is
refused they go on with null or false, which is never seen, because `Follows`
speaks of the value only where nothing was refused.

A rule is the one place where a stage stops for a reason other than a refusal.
It is left at the first cell that is answered false, so its script is already
cut there.

The stage between the rules that match and those that count is not here. It
depends on the policy, and is taken apart where the stages are put together.

## Main definitions

* `Engine.coerced`, `Engine.conversions`: A value brought under a clause.
* `Engine.bound`, `Engine.context`: The values of the input clauses.
* `InputEntry.tests`: The questions about the input cells of a rule.
* `Engine.asked`, `Engine.grants`: Those of them that are asked, and whether all are
  answered true.
* `Engine.candidate`: A rule with the outputs of its cells.
* `Engine.ruleResult`: The result of a rule that counts.

## Theorems

* `input_context`: Every input clause is bound to its value.
* `follows_coerce` to `follows_results`: The script and value of each stage.
-/

namespace Decision

open Consultation

variable (engine : Engine)

namespace Engine

/-! ## Clauses -/

section Coercion

variable {role : Role}

/-- A value as it is under a clause: unchanged if the clause declares no type or
    the value is null, and otherwise converted. -/
def coerced (clause : Clause role) (raw : Value) : Value :=
  match clause.typeName with
  | none => raw
  | some typeName =>
      if raw.isNull then raw
      else
        match engine.converter? typeName with
        | none => .null
        | some converter => (converter raw).toOption.getD .null

/-- The questions about a value under a clause: none if the clause declares no
    type or the value is null, and otherwise one for the converter and one for
    the converted value. -/
def conversions (clause : Clause role) (raw : Value) : List Call :=
  match clause.typeName with
  | none => []
  | some typeName =>
      if raw.isNull then []
      else
        match engine.converter? typeName with
        | none => [.lookup typeName]
        | some converter => [.lookup typeName, .convert typeName converter raw]

theorem follows_convert {typeName : String} (converter : Converter) (raw : Value)
    {refuse : ConversionError → Consultation Value}
    (hrefuse : ∀ reason, ∃ e, refuse reason = done (.error e)) :
    Follows engine.reply
      (convert typeName converter raw >>= fun answer =>
        match answer with
        | .ok value => pure value
        | .error reason => refuse reason)
      [.convert typeName converter raw] (.ok ((converter raw).toOption.getD .null)) := by
  have hreply : engine.reply (.convert typeName converter raw) = converter raw := rfl
  refine follows_ask_once _ ?_ ?_
  · rw [Call.refusedBy, hreply]
    intro h
    cases hvalue : converter raw with
    | ok value => rfl
    | error reason =>
        rw [hvalue] at h
        exact absurd h.symm Bool.false_ne_true
  · rw [Call.refusedBy, hreply]
    intro h
    cases hvalue : converter raw with
    | ok value =>
        rw [hvalue] at h
        exact absurd h Bool.false_ne_true
    | error reason => exact hrefuse reason

theorem follows_coerce (clause : Clause role) (raw : Value) :
    Follows engine.reply (clause.coerce raw) (engine.conversions clause raw)
      (.ok (engine.coerced clause raw)) := by
  unfold Clause.coerce conversions coerced
  cases clause.typeName with
  | none => exact follows_pure raw
  | some typeName =>
      simp only
      by_cases hnull : raw.isNull = true
      · simp only [if_pos hnull]
        exact follows_pure raw
      · simp only [if_neg hnull]
        have hreply : engine.reply (.lookup typeName) = engine.converter? typeName := rfl
        cases hconverter : engine.converter? typeName with
        | none =>
            rw [hconverter] at hreply
            refine follows_ask_of_refusal (e := .unknownType role clause.name typeName) ?_ ?_ [] _
            · rw [Call.refusedBy, hreply]
              rfl
            · rw [hreply]
              rfl
        | some converter =>
            rw [hconverter] at hreply
            refine follows_ask ?_ ?_
            · rw [Call.refusedBy, hreply]
              rfl
            · rw [hreply]
              exact engine.follows_convert converter raw fun reason => ⟨_, rfl⟩

end Coercion

/-! ## Input clauses -/

/-- The value of an input clause. A missing variable counts as null. -/
def bound (supplied : Variables) (clause : Clause .input) : Value :=
  engine.coerced clause (supplied[clause.name]?.getD .null)

/-- The context in which every input clause is bound to its value. -/
def context (inputs : List (Clause .input)) (supplied : Variables) : Context :=
  inputs.foldl (fun context clause => context.bind clause.name (engine.bound supplied clause))
    (.ofVariables supplied)

/-- The questions about the values of the input clauses. -/
def bindings (inputs : List (Clause .input)) (supplied : Variables) : List Call :=
  inputs.flatMap fun clause => engine.conversions clause (supplied[clause.name]?.getD .null)

theorem follows_bindInputs (inputs : List (Clause .input)) (context : Context) :
    Follows engine.reply (context.bindInputs inputs) (engine.bindings inputs context.variables)
      (.ok (inputs.foldl (fun context' clause =>
        context'.bind clause.name (engine.bound context.variables clause)) context)) := by
  induction inputs generalizing context with
  | nil => exact follows_pure context
  | cons clause clauses ih =>
      simp only [Context.bindInputs, bindings, List.flatMap_cons, List.foldl_cons]
      -- Binding a clause leaves the variables as they were.
      exact follows_bind (engine.follows_coerce clause _) (ih (context.bind clause.name _))

theorem follows_ofInputs (inputs : List (Clause .input)) (supplied : Variables) :
    Follows engine.reply (Context.ofInputs inputs supplied) (engine.bindings inputs supplied)
      (.ok (engine.context inputs supplied)) :=
  engine.follows_bindInputs inputs (.ofVariables supplied)

theorem input_foldl_bind_other {value : Clause .input → Value} {inputs : List (Clause .input)}
    {name : String} (h : name ∉ inputs.map Clause.name) (context : Context) :
    (inputs.foldl (fun context clause => context.bind clause.name (value clause)) context).input
      name = context.input name := by
  induction inputs generalizing context with
  | nil => rfl
  | cons clause clauses ih =>
      rw [List.map_cons, List.mem_cons, not_or] at h
      rw [List.foldl_cons, ih h.2]
      simp only [Context.input, Context.bind, Std.ExtTreeMap.getElem?_insert]
      rw [if_neg]
      intro hc
      exact h.1 (Std.LawfulEqCmp.eq_of_compare hc).symm

/-- Every input clause is bound to its value, names being distinct. -/
theorem input_foldl_bind {value : Clause .input → Value} {inputs : List (Clause .input)}
    (h : (inputs.map Clause.name).Nodup) {clause : Clause .input} (hmem : clause ∈ inputs)
    (context : Context) :
    (inputs.foldl (fun context clause => context.bind clause.name (value clause)) context).input
      clause.name = value clause := by
  induction inputs generalizing context with
  | nil => exact absurd hmem List.not_mem_nil
  | cons other clauses ih =>
      rw [List.map_cons, List.nodup_cons] at h
      rw [List.foldl_cons]
      rcases List.mem_cons.mp hmem with rfl | hmem
      · -- No later clause has the name, so the binding stays.
        rw [input_foldl_bind_other h.1]
        simp only [Context.input, Context.bind, Std.ExtTreeMap.getElem?_insert_self,
          Option.getD_some]
      · exact ih h.2 hmem _

theorem input_context {inputs : List (Clause .input)} (h : (inputs.map Clause.name).Nodup)
    (supplied : Variables) {clause : Clause .input} (hmem : clause ∈ inputs) :
    (engine.context inputs supplied).input clause.name = engine.bound supplied clause :=
  input_foldl_bind h hmem (.ofVariables supplied)

/-! ## Cells -/

/-- The value of an output cell, or null if it has no answer. -/
def produced (context : Context) (cell : Expression) : Value :=
  (engine.evaluator.output cell context).toOption.getD .null

theorem follows_condition (cell : Expression) (value : Value) (context : Context) :
    Follows engine.reply (condition cell value context) [.condition cell value context]
      (.ok ((engine.evaluator.condition cell value context).toOption.getD false)) :=
  follows_ask_once _ (fun h => ofExpression_of_isOk h false) fun h => ofExpression_of_not_isOk h

theorem follows_output (context : Context) (cell : Expression) :
    Follows engine.reply (output cell context) [.output cell context]
      (.ok (engine.produced context cell)) :=
  follows_ask_once _ (fun h => ofExpression_of_isOk h .null) fun h => ofExpression_of_not_isOk h

end Engine

/-! ## Rules -/

/-- The question that an input cell gives rise to, if it is not left open. -/
def InputEntry.question? (context : Context) (value : Value) : InputEntry → Option Call
  | .any => none
  | .test cell => some (.condition cell value context)

/-- The questions about all input cells of a rule, each about the value of its
    clause. -/
def InputEntry.tests (context : Context) (value : Clause .input → Value)
    (clauses : List (Clause .input)) (entries : List InputEntry) : List Call :=
  (clauses.zip entries).filterMap fun (clause, entry) => entry.question? context (value clause)

/-- Whether a reply says that a condition does not hold. -/
def Call.isDenial : (call : Call) → call.Reply → Bool
  | .condition .., reply => Except.toOption reply == some false
  | _, _ => false

/-- Whether a reply says that a condition holds. -/
def Call.isGrant : (call : Call) → call.Reply → Bool
  | .condition .., reply => Except.toOption reply == some true
  | _, _ => false

namespace Engine

/-- The questions about the input cells of a rule up to the first cell that does
    not hold. -/
def asked (tests : List Call) : List Call :=
  throughFirst (fun call => call.isDenial (engine.reply call)) tests

/-- Whether all questions about the input cells of a rule are answered true. -/
def grants (tests : List Call) : Bool :=
  tests.all fun call => call.isGrant (engine.reply call)

theorem follows_allHold {context : Context} {value : Clause .input → Value}
    {clauses : List (Clause .input)}
    (hvalue : ∀ clause ∈ clauses, context.input clause.name = value clause)
    (entries : List InputEntry) :
    Follows engine.reply (InputEntry.allHold context clauses entries)
      (engine.asked (InputEntry.tests context value clauses entries))
      (.ok (engine.grants (InputEntry.tests context value clauses entries))) := by
  induction clauses generalizing entries with
  | nil =>
      simp only [InputEntry.allHold]
      exact follows_pure true
  | cons clause clauses ih =>
      have hrest := ih fun other hother => hvalue other (List.mem_cons_of_mem clause hother)
      cases entries with
      | nil =>
          simp only [InputEntry.allHold]
          exact follows_pure true
      | cons entry entries =>
          cases entry with
          | any =>
              simp only [InputEntry.allHold]
              exact hrest entries
          | test cell =>
              have hinput := hvalue clause List.mem_cons_self
              simp only [InputEntry.allHold, hinput]
              have htests : InputEntry.tests context value (clause :: clauses)
                  (.test cell :: entries) = .condition cell (value clause) context ::
                    InputEntry.tests context value clauses entries := rfl
              have hreply : engine.reply (.condition cell (value clause) context) =
                  engine.evaluator.condition cell (value clause) context := rfl
              have hfirst := engine.follows_condition cell (value clause) context
              rw [htests, asked, grants, throughFirst, List.all_cons, Call.isDenial, Call.isGrant]
              simp only [hreply]
              -- The reply decides whether the rule is left, gone on with, or lost.
              cases hanswer : engine.evaluator.condition cell (value clause) context with
              | ok holds =>
                  rw [hanswer] at hfirst
                  cases holds with
                  | true => exact follows_bind hfirst (hrest entries)
                  | false => exact follows_bind hfirst (follows_pure false)
              | error reason =>
                  refine follows_ask_of_refusal (e := .expression reason) ?_ ?_ _ _
                  · rw [Call.refusedBy, hreply, hanswer]
                    rfl
                  · rw [hreply, hanswer]
                    rfl

theorem follows_matching {inputs : List (Clause .input)} {context : Context}
    {value : Clause .input → Value}
    (hvalue : ∀ clause ∈ inputs, context.input clause.name = value clause) (rows : List Row) :
    Follows engine.reply (Row.matching inputs context rows)
      (rows.flatMap fun row => engine.asked (InputEntry.tests context value inputs row.rule.inputs))
      (.ok (rows.filter fun row =>
        engine.grants (InputEntry.tests context value inputs row.rule.inputs))) := by
  induction rows with
  | nil => exact follows_pure []
  | cons row rows ih =>
      simp only [Row.matching, List.flatMap_cons, List.filter_cons]
      refine follows_bind (engine.follows_allHold hvalue row.rule.inputs) ?_
      exact follows_map ih _

/-! ## Outputs -/

/-- A rule with the values of its output cells. -/
def candidate (context : Context) (row : Row) : Candidate where
  row := row
  outputs := row.rule.outputs.map (engine.produced context)

theorem follows_outputs (context : Context) (cells : List Expression) :
    Follows engine.reply (Expression.outputs context cells)
      (cells.map fun cell => .output cell context)
      (.ok (cells.map (engine.produced context))) := by
  induction cells with
  | nil => exact follows_pure []
  | cons cell cells ih =>
      simp only [Expression.outputs, List.map_cons]
      have hcell := engine.follows_output context cell
      exact follows_bind hcell (follows_map ih _)

theorem follows_ofRows (context : Context) (rows : List Row) :
    Follows engine.reply (Candidate.ofRows context rows)
      (rows.flatMap fun row => row.rule.outputs.map fun cell => .output cell context)
      (.ok (rows.map (engine.candidate context))) := by
  induction rows with
  | nil => exact follows_pure []
  | cons row rows ih =>
      have hrow : Follows engine.reply (Candidate.ofRow context row)
          (row.rule.outputs.map fun cell => .output cell context)
          (.ok (engine.candidate context row)) :=
        follows_map (engine.follows_outputs context row.rule.outputs) _
      simp only [Candidate.ofRows, List.flatMap_cons, List.map_cons]
      refine follows_bind hrow ?_
      exact follows_map ih _

/-! ## Results -/

/-- The entries of a rule that counts, each under its clause. -/
def entries (clauses : List (Clause .output)) (raws : List Value) : List (String × Value) :=
  List.zipWith (fun clause raw => (clause.name, engine.coerced clause raw)) clauses raws

/-- The questions about the outputs of a rule that counts. -/
def entryConversions (clauses : List (Clause .output)) (raws : List Value) : List Call :=
  (clauses.zip raws).flatMap fun (clause, raw) => engine.conversions clause raw

/-- The result of a rule that counts. -/
def ruleResult (clauses : List (Clause .output)) (candidate : Candidate) : RuleResult where
  index := some candidate.row.index
  id := candidate.row.rule.id
  entries := engine.entries clauses candidate.outputs

theorem follows_entries (clauses : List (Clause .output)) (raws : List Value) :
    Follows engine.reply (Clause.entries clauses raws) (engine.entryConversions clauses raws)
      (.ok (engine.entries clauses raws)) := by
  induction clauses generalizing raws with
  | nil => exact follows_pure []
  | cons clause clauses ih =>
      cases raws with
      | nil => exact follows_pure []
      | cons raw raws =>
          simp only [Clause.entries, entryConversions, List.zip_cons_cons, List.flatMap_cons]
          refine follows_bind (engine.follows_coerce clause raw) ?_
          exact follows_map (ih raws) _

theorem follows_results (clauses : List (Clause .output)) (candidates : List Candidate) :
    Follows engine.reply (Candidate.results clauses candidates)
      (candidates.flatMap fun candidate => engine.entryConversions clauses candidate.outputs)
      (.ok (candidates.map (engine.ruleResult clauses))) := by
  induction candidates with
  | nil => exact follows_pure []
  | cons candidate candidates ih =>
      simp only [Candidate.results, List.flatMap_cons, List.map_cons]
      refine follows_bind (engine.follows_entries clauses candidate.outputs) ?_
      exact follows_map ih _

end Engine

end Decision
