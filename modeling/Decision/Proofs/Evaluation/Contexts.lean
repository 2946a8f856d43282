import Decision.Proofs.Evaluation.Stages
import Decision.Proofs.Outcome

/-!
# Contexts That Cannot Be Told Apart

How much of a context an evaluation looks at.

A context reaches an evaluation in two ways: as the values of the input clauses,
and through the answers that the cells of the table have in it. Contexts that
are the same in these respects are `Alike`, and an evaluation has one outcome in
both, down to the error. Nothing is said about the evaluator here. It may look
at a context as closely as it wants, and whoever uses `Alike` has to know that
it does not look at the difference.

For this the binding of the input clauses is parted from the rest of the
evaluation. What comes after it is cut once more, before the results are
converted: `Table.chosen` is the part that works on outputs as the cells produce
them.

Contexts in which the same clauses were bound to the same values differ at most
in the variables below the bindings. A name that is bound never gets there,
which is what `get?_withVariables` is about.

## Main definitions

* `Table.chosen`: The rules that match and those that count.
* `Table.reported`: What is made of them.
* `Context.withVariables`: The same bindings over other variables.
* `Engine.Alike`: Two contexts are the same to the cells of some rules.

## Theorems

* `run_report`: An evaluation binds the inputs, chooses rules and reports them.
* `get?_withVariables`: Where a name means the same over other variables.
* `run_bindInputs_congr`: Other variables with the same values of the clauses.
* `run_allHold_any`, `run_allHold_test`: The walk along the cells of a rule, step by
  step.
* `run_matching_map`: Rules that are exchanged for others that match when they do.
* `run_chosen_congr`: The same rules are chosen in contexts that are alike.
-/

namespace Decision

open Consultation

/-! ## The parts of an evaluation -/

namespace Table

/-- The rules that match in a context, and those of them that count. -/
def chosen (table : Table) (context : Context) : Consultation (List Row × List Candidate) := do
  let matched ← Row.matching table.inputs context table.rows
  let selected ← table.policy.select table.outputs context matched
  return (matched, selected)

/-- What is reported of the rules that match and those that count, whose results
    are given. -/
def reported (table : Table) (matched : List Row) (selected : List Candidate)
    (results : List RuleResult) : Except EvalError Report := do
  let result ← table.finish results
  return {
    result := result
    matched := matched.map Row.index
    selected := selected.map fun candidate => candidate.row.index
  }

end Table

namespace Engine

variable (engine : Engine)

/-- An evaluation binds the input clauses, chooses rules, converts the outputs of
    those that count, and reports. -/
theorem run_report (table : Table) (supplied : Variables) :
    engine.report table supplied =
      ((Context.ofInputs table.inputs supplied).run engine.reply >>= fun context =>
        (table.chosen context).run engine.reply >>= fun chosen =>
          (Candidate.results table.outputs chosen.2).run engine.reply >>= fun results =>
            table.reported chosen.1 chosen.2 results) := by
  simp only [report, Table.consult, Table.chosen, run_bind]
  cases (Context.ofInputs table.inputs supplied).run engine.reply with
  | error e => rfl
  | ok context =>
      show ((Row.matching table.inputs context table.rows).run engine.reply >>= _) =
        (((Row.matching table.inputs context table.rows).run engine.reply >>= _) >>= _)
      cases (Row.matching table.inputs context table.rows).run engine.reply with
      | error e => rfl
      | ok matched =>
          show ((table.policy.select table.outputs context matched).run engine.reply >>= _) =
            (((table.policy.select table.outputs context matched).run engine.reply >>= _) >>= _)
          cases (table.policy.select table.outputs context matched).run engine.reply with
          | error e => rfl
          | ok selected => rfl

end Engine

/-! ## Bindings -/

namespace Context

/-- The bindings of a context over other variables. -/
def withVariables (context : Context) (supplied : Variables) : Context :=
  { context with «variables» := supplied }

/-- Over other variables a name means the same if it is bound or if the variables
    agree on it. -/
theorem get?_withVariables {context : Context} {supplied : Variables} {name : String}
    (h : name ∈ context.bindings ∨ context.variables[name]? = supplied[name]?) :
    context.get? name = (context.withVariables supplied).get? name := by
  unfold get? withVariables
  rcases h with hbound | hvariable
  · -- The binding is found first, and the variables do not matter.
    rw [Std.ExtTreeMap.getElem?_eq_some_getElem hbound]
    rfl
  · rw [hvariable]

section Bound

variable {value : Clause .input → Value}

/-- Binding clauses leaves the variables as they were. -/
theorem variables_foldl_bind (inputs : List (Clause .input)) (context : Context) :
    (inputs.foldl (fun context clause => context.bind clause.name (value clause))
      context).variables = context.variables := by
  induction inputs generalizing context with
  | nil => rfl
  | cons clause clauses ih => rw [List.foldl_cons, ih, bind]

/-- Binding clauses binds their names and no others. -/
theorem mem_bindings_foldl_bind {inputs : List (Clause .input)} {name : String}
    (context : Context) :
    name ∈ (inputs.foldl (fun context clause => context.bind clause.name (value clause))
      context).bindings ↔ name ∈ inputs.map Clause.name ∨ name ∈ context.bindings := by
  induction inputs generalizing context with
  | nil => simp only [List.foldl_nil, List.map_nil, List.not_mem_nil, false_or]
  | cons clause clauses ih =>
      rw [List.foldl_cons, ih, bind, Std.ExtTreeMap.mem_insert, List.map_cons, List.mem_cons,
        Std.LawfulEqCmp.compare_eq_iff_eq]
      constructor
      · rintro (hrest | hname | hbound)
        · exact Or.inl (Or.inr hrest)
        · exact Or.inl (Or.inl hname.symm)
        · exact Or.inr hbound
      · rintro ((hname | hrest) | hbound)
        · exact Or.inr (Or.inl hname.symm)
        · exact Or.inl hrest
        · exact Or.inr (Or.inr hbound)

end Bound

end Context

namespace Engine

variable (engine : Engine)

theorem variables_context (inputs : List (Clause .input)) (supplied : Variables) :
    (engine.context inputs supplied).variables = supplied :=
  Context.variables_foldl_bind inputs (.ofVariables supplied)

/-- The names of the input clauses are bound, and no others. -/
theorem mem_bindings_context {inputs : List (Clause .input)} {supplied : Variables}
    {name : String} :
    name ∈ (engine.context inputs supplied).bindings ↔ name ∈ inputs.map Clause.name := by
  rw [context, Context.mem_bindings_foldl_bind]
  exact or_iff_left Std.ExtTreeMap.not_mem_empty

/-- Where the input clauses can be bound, the context is the one that binds each
    of them to its value. -/
theorem eq_context_of_run {inputs : List (Clause .input)} {supplied : Variables}
    {context : Context}
    (h : (Context.ofInputs inputs supplied).run engine.reply = .ok context) :
    context = engine.context inputs supplied := by
  rcases follows_of_run_eq_ok (engine.follows_ofInputs inputs supplied) h with ⟨_, hcontext⟩
  exact (Except.ok.inj hcontext).symm

/-- Over other variables with the same values of the clauses, the same bindings
    are made or the same error comes up. -/
theorem run_bindInputs_congr (inputs : List (Clause .input)) {a b : Context}
    (hbindings : a.bindings = b.bindings)
    (hraw : ∀ clause ∈ inputs,
      a.variables[clause.name]?.getD .null = b.variables[clause.name]?.getD .null) :
    (b.bindInputs inputs).run engine.reply =
      ((a.bindInputs inputs).run engine.reply).map
        fun context => context.withVariables b.variables := by
  induction inputs generalizing a b with
  | nil =>
      have hb : b = a.withVariables b.variables := by rw [Context.withVariables, hbindings]
      simp only [Context.bindInputs, run_pure, Except.map]
      exact congrArg Except.ok hb
  | cons clause clauses ih =>
      have hfirst := hraw clause List.mem_cons_self
      simp only [Context.bindInputs, run_bind, ← hfirst]
      cases (clause.coerce (a.variables[clause.name]?.getD .null)).run engine.reply with
      | error e => rfl
      | ok value =>
          -- Both contexts get the same binding, and keep their variables.
          have hafter : (a.bind clause.name value).bindings =
              (b.bind clause.name value).bindings := by
            simp only [Context.bind, hbindings]
          exact ih hafter fun other hother => hraw other (List.mem_cons_of_mem clause hother)

/-- A rule of a table has an output for every clause. -/
theorem length_outputs_candidate {table : Table} {context : Context} {row : Row}
    (hrow : row ∈ table.rows) :
    (engine.candidate context row).outputs.length = table.outputs.length := by
  rw [candidate, List.length_map]
  exact table.valid.outputs_length row.rule (Row.rule_mem_of_mem_listFrom hrow)

/-! ## Contexts that are alike -/

/-- Two contexts are the same to the cells of some rules: they give the input
    clauses the same values, and every cell has the same answer in both. -/
structure Alike (inputs : List (Clause .input)) (rows : List Row) (a b : Context) : Prop where
  input_eq : ∀ clause ∈ inputs, a.input clause.name = b.input clause.name
  condition_eq : ∀ row ∈ rows, ∀ cell, .test cell ∈ row.rule.inputs → ∀ value,
    engine.evaluator.condition cell value a = engine.evaluator.condition cell value b
  output_eq : ∀ row ∈ rows, ∀ cell ∈ row.rule.outputs,
    engine.evaluator.output cell a = engine.evaluator.output cell b

variable {engine} {a b : Context}

/-! ## The cells of a rule -/

theorem run_allHold_nil (context : Context) (entries : List InputEntry) :
    (InputEntry.allHold context [] entries).run engine.reply = .ok true := by
  simp only [InputEntry.allHold]
  rfl

theorem run_allHold_nil_right (context : Context) (clauses : List (Clause .input)) :
    (InputEntry.allHold context clauses []).run engine.reply = .ok true := by
  cases clauses <;> simp only [InputEntry.allHold] <;> rfl

/-- An open cell is passed without a question. -/
theorem run_allHold_any (context : Context) (clause : Clause .input)
    (clauses : List (Clause .input)) (entries : List InputEntry) :
    (InputEntry.allHold context (clause :: clauses) (.any :: entries)).run engine.reply =
      (InputEntry.allHold context clauses entries).run engine.reply := by
  simp only [InputEntry.allHold]

/-- At a cell with a condition the walk ends, unless the answer is true. -/
theorem run_allHold_test (context : Context) (clause : Clause .input)
    (clauses : List (Clause .input)) (cell : Expression) (entries : List InputEntry) :
    (InputEntry.allHold context (clause :: clauses) (.test cell :: entries)).run engine.reply =
      match engine.evaluator.condition cell (context.input clause.name) context with
      | .ok true => (InputEntry.allHold context clauses entries).run engine.reply
      | .ok false => .ok false
      | .error reason => .error (.expression reason) := by
  have hask : (condition cell (context.input clause.name) context).run engine.reply =
      (engine.evaluator.condition cell (context.input clause.name) context).mapError
        .expression := rfl
  simp only [InputEntry.allHold, run_bind, hask]
  cases engine.evaluator.condition cell (context.input clause.name) context with
  | error reason => rfl
  | ok holds => cases holds <;> rfl

/-- Rules that are exchanged for others match as before if their cells hold when those
    of the others do, be it in another context. -/
theorem run_matching_map {exchange : Row → Row} {inputs inputs' : List (Clause .input)}
    {context context' : Context} {rows : List Row}
    (h : ∀ row ∈ rows,
      (InputEntry.allHold context' inputs' (exchange row).rule.inputs).run engine.reply =
        (InputEntry.allHold context inputs row.rule.inputs).run engine.reply) :
    (Row.matching inputs' context' (rows.map exchange)).run engine.reply =
      ((Row.matching inputs context rows).run engine.reply).map (List.map exchange) := by
  induction rows with
  | nil => rfl
  | cons row rows ih =>
      rw [List.forall_mem_cons] at h
      simp only [List.map_cons, Row.matching, run_bind, ih h.2, h.1]
      cases (InputEntry.allHold context inputs row.rule.inputs).run engine.reply with
      | error e => rfl
      | ok holds =>
          cases (Row.matching inputs context rows).run engine.reply with
          | error e => rfl
          | ok others => cases holds <;> rfl

/-! ## Cells in contexts that are alike -/

theorem run_allHold_congr {clauses : List (Clause .input)} {entries : List InputEntry}
    (hinput : ∀ clause ∈ clauses, a.input clause.name = b.input clause.name)
    (hcell : ∀ cell, .test cell ∈ entries → ∀ value,
      engine.evaluator.condition cell value a = engine.evaluator.condition cell value b) :
    (InputEntry.allHold a clauses entries).run engine.reply =
      (InputEntry.allHold b clauses entries).run engine.reply := by
  induction clauses generalizing entries with
  | nil => rw [run_allHold_nil, run_allHold_nil]
  | cons clause clauses ih =>
      have hrest : ∀ others : List InputEntry, (∀ cell, .test cell ∈ others → ∀ value,
          engine.evaluator.condition cell value a = engine.evaluator.condition cell value b) →
          (InputEntry.allHold a clauses others).run engine.reply =
            (InputEntry.allHold b clauses others).run engine.reply :=
        fun others hothers =>
          ih (fun other hother => hinput other (List.mem_cons_of_mem clause hother)) hothers
      cases entries with
      | nil => rw [run_allHold_nil_right, run_allHold_nil_right]
      | cons entry entries =>
          have hentries := hrest entries fun cell hmem =>
            hcell cell (List.mem_cons_of_mem entry hmem)
          cases entry with
          | any => rw [run_allHold_any, run_allHold_any, hentries]
          | test cell =>
              have hvalue := hinput clause List.mem_cons_self
              have hanswer := hcell cell List.mem_cons_self (b.input clause.name)
              rw [run_allHold_test, run_allHold_test, hvalue, hanswer, hentries]

theorem run_matching_congr {inputs : List (Clause .input)} {rows : List Row}
    (h : engine.Alike inputs rows a b) :
    (Row.matching inputs a rows).run engine.reply =
      (Row.matching inputs b rows).run engine.reply := by
  -- Every row is exchanged for itself.
  have hmap : (Row.matching inputs a (rows.map id)).run engine.reply =
      ((Row.matching inputs b rows).run engine.reply).map (List.map id) :=
    run_matching_map fun row hrow => run_allHold_congr h.input_eq (h.condition_eq row hrow)
  rw [List.map_id, List.map_id_fun, Except.map_id] at hmap
  exact hmap

/-- Only rules that are there can match. -/
theorem mem_of_run_matching {inputs : List (Clause .input)} {rows matched : List Row}
    (h : (Row.matching inputs a rows).run engine.reply = .ok matched) {row : Row}
    (hrow : row ∈ matched) : row ∈ rows := by
  have hinput : ∀ clause ∈ inputs, a.input clause.name = a.input clause.name := fun _ _ => rfl
  rcases follows_of_run_eq_ok (engine.follows_matching hinput rows) h with ⟨_, hmatched⟩
  rw [← Except.ok.inj hmatched] at hrow
  exact (List.mem_filter.mp hrow).1

theorem run_outputs_congr {cells : List Expression}
    (h : ∀ cell ∈ cells, engine.evaluator.output cell a = engine.evaluator.output cell b) :
    (Expression.outputs a cells).run engine.reply =
      (Expression.outputs b cells).run engine.reply := by
  induction cells with
  | nil => rfl
  | cons cell cells ih =>
      have hcell : (output cell a).run engine.reply = (output cell b).run engine.reply := by
        show (ofExpression (engine.evaluator.output cell a)).run engine.reply =
          (ofExpression (engine.evaluator.output cell b)).run engine.reply
        rw [h cell List.mem_cons_self]
      have hcells := ih fun other hother => h other (List.mem_cons_of_mem cell hother)
      simp only [Expression.outputs, run_bind, hcell, hcells]

theorem run_ofRows_congr {rows : List Row} (h : ∀ row ∈ rows, ∀ cell ∈ row.rule.outputs,
      engine.evaluator.output cell a = engine.evaluator.output cell b) :
    (Candidate.ofRows a rows).run engine.reply = (Candidate.ofRows b rows).run engine.reply := by
  induction rows with
  | nil => rfl
  | cons row rows ih =>
      have hrow := run_outputs_congr (h row List.mem_cons_self)
      have hrows := ih fun other hother => h other (List.mem_cons_of_mem row hother)
      simp only [Candidate.ofRows, Candidate.ofRow, run_bind, hrow, hrows]

theorem run_select_congr (policy : HitPolicy) (clauses : List (Clause .output))
    (matched : List Row) (h : ∀ row ∈ matched, ∀ cell ∈ row.rule.outputs,
      engine.evaluator.output cell a = engine.evaluator.output cell b) :
    (policy.select clauses a matched).run engine.reply =
      (policy.select clauses b matched).run engine.reply := by
  have hall := run_ofRows_congr h
  cases policy with
  | unique =>
      match matched with
      | [] => rfl
      | [only] => exact hall
      | first :: second :: others => rfl
  | first => exact run_ofRows_congr fun row hrow => h row (List.mem_of_mem_take hrow)
  | collect => exact hall
  | ruleOrder => exact hall
  | any => simp only [HitPolicy.select, run_bind, hall]
  | priority => simp only [HitPolicy.select, run_bind, hall]
  | outputOrder => simp only [HitPolicy.select, run_bind, hall]

/-- In contexts that are alike the same rules are chosen, or the same error comes
    up. -/
theorem run_chosen_congr {table : Table} (h : engine.Alike table.inputs table.rows a b) :
    (table.chosen a).run engine.reply = (table.chosen b).run engine.reply := by
  simp only [Table.chosen, run_bind, ← run_matching_congr h]
  cases hmatched : (Row.matching table.inputs a table.rows).run engine.reply with
  | error e => rfl
  | ok matched =>
      have hselect := run_select_congr table.policy table.outputs matched fun row hrow =>
        h.output_eq row (mem_of_run_matching hmatched hrow)
      show (table.policy.select table.outputs a matched).run engine.reply >>= _ =
        (table.policy.select table.outputs b matched).run engine.reply >>= _
      rw [hselect]

end Engine

end Decision
