import Decision.Proofs.Condition.Names
import Decision.Proofs.Evaluation.Contexts
import Decision.Proofs.Evaluation.Session

/-!
# The Variables That Matter

An evaluation sees the variables that the table mentions, and nothing else of
what it was given.

A table mentions a variable in two ways. As the name of an input clause the
variable is read once, and a missing one counts as null, so a variable that is
missing and one that holds null are the same. As a name in a cell it is looked
up by the cell, and there the two are different: a name that is bound to nothing
makes the cell fail. A name that is both is bound before any cell looks it up,
so only the first way is left.

`report_eq_of_agree` puts this together for two sets of variables. Neither of
them has to make the evaluation succeed. Where it fails it fails with the same
error, because variables that agree on what is read also agree on what goes
wrong first.

## Main definitions

* `Table.cellNames`: The names in the cells of a table.

## Theorems

* `alike_of_agree`: Contexts that agree on the names in the cells are alike.
* `report_eq_of_agree`: Variables that agree on what the table mentions have one
  outcome.
-/

namespace Decision

/-- The names in an input cell, and none if the cell is left open. -/
def InputEntry.names : InputEntry → List String
  | .any => []
  | .test cell => cell.conditionNames

/-- The names in the cells of a rule. -/
def Rule.cellNames (rule : Rule) : List String :=
  rule.inputs.flatMap InputEntry.names ++ rule.outputs.flatMap Expression.operandNames

/-- The names in the cells of a table. -/
def Table.cellNames (table : Table) : List String := table.rules.flatMap Rule.cellNames

namespace Engine

variable (converter? : String → Option Converter) {table : Table}

/-- For cells in the simple language, contexts with the same bindings that agree
    on the names in the cells of a table are alike. -/
theorem alike_of_agree {a b : Context} (hbindings : a.bindings = b.bindings)
    (hnames : ∀ name ∈ table.cellNames, a.get? name = b.get? name) :
    (Engine.simple converter?).Alike table.inputs table.rows a b := by
  have hrule : ∀ row ∈ table.rows, ∀ name ∈ row.rule.cellNames, a.get? name = b.get? name := by
    intro row hrow name hname
    exact hnames name
      (List.mem_flatMap.mpr ⟨row.rule, Row.rule_mem_of_mem_listFrom hrow, hname⟩)
  refine ⟨?_, ?_, ?_⟩
  · intro clause _
    rw [Context.input, Context.input, hbindings]
  · intro row hrow cell hcell value
    refine Evaluator.condition_congr (fun name hname => hrule row hrow name ?_) value
    exact List.mem_append_left _ (List.mem_flatMap.mpr ⟨.test cell, hcell, hname⟩)
  · intro row hrow cell hcell
    refine Evaluator.output_congr fun name hname => hrule row hrow name ?_
    exact List.mem_append_right _ (List.mem_flatMap.mpr ⟨cell, hcell, hname⟩)

/-- Two sets of variables lead to the same outcome, be it a report or an error,
    if they agree on the input clauses, where a missing variable counts as null,
    and on every other name in a cell, where it does not. -/
theorem report_eq_of_agree {first second : Variables}
    (hclauses : ∀ name ∈ table.inputs.map Clause.name,
      first[name]?.getD .null = second[name]?.getD .null)
    (hcells : ∀ name ∈ table.cellNames, name ∉ table.inputs.map Clause.name →
      first[name]? = second[name]?) :
    (Engine.simple converter?).report table first =
      (Engine.simple converter?).report table second := by
  rw [run_report, run_report]
  have hbind := (Engine.simple converter?).run_bindInputs_congr table.inputs
    (a := .ofVariables first) (b := .ofVariables second) rfl fun clause hclause =>
      hclauses clause.name (List.mem_map.mpr ⟨clause, hclause, rfl⟩)
  have hinputs : (Context.ofInputs table.inputs second).run (Engine.simple converter?).reply =
      ((Context.ofInputs table.inputs first).run (Engine.simple converter?).reply).map
        fun context => context.withVariables second := hbind
  rw [hinputs]
  cases hcontext : (Context.ofInputs table.inputs first).run (Engine.simple converter?).reply with
  | error e => rfl
  | ok context =>
      have heq : context = (Engine.simple converter?).context table.inputs first :=
        eq_context_of_run _ hcontext
      have halike : (Engine.simple converter?).Alike table.inputs table.rows context
          (context.withVariables second) := by
        refine alike_of_agree converter? rfl fun name hname => Context.get?_withVariables ?_
        rw [heq, mem_bindings_context, variables_context]
        -- A name in a cell is bound if a clause has it, and a variable otherwise.
        by_cases hclause : name ∈ table.inputs.map Clause.name
        · exact Or.inl hclause
        · exact Or.inr (hcells name hname hclause)
      have hchosen := run_chosen_congr halike
      show ((table.chosen context).run _ >>= _) = ((table.chosen _).run _ >>= _)
      rw [hchosen]

end Engine

/-! ## An instance -/

/-- One input clause, whose cell mentions another name, as the output cell does. -/
def Draft.belowLimit : Draft where
  id := "below limit"
  inputs := [{ name := "age", typeName := some "long" }]
  outputs := [{ name := "fee" }]
  rules := [⟨none, [.test ⟨"not(>= limit)", none⟩], [⟨"limit", none⟩]⟩]

def Table.belowLimit : Table := ⟨.belowLimit, Draft.valid_of_fault?_eq_none (by decide +kernel)⟩

/-- A missing age is as good as none, and a colour that no cell mentions does
    not matter. -/
theorem Engine.report_belowLimit :
    let first : Variables := (∅ : Variables).insert "limit" (.int 10)
    let second : Variables := (first.insert "age" .null).insert "colour" (.string "red")
    (∀ name ∈ Table.belowLimit.inputs.map Clause.name,
        first[name]?.getD .null = second[name]?.getD .null) ∧
      (∀ name ∈ Table.belowLimit.cellNames, name ∉ Table.belowLimit.inputs.map Clause.name →
        first[name]? = second[name]?) ∧
      (Engine.simple Registry.standard.converter?).report .belowLimit first =
        (Engine.simple Registry.standard.converter?).report .belowLimit second := by
  intro first second
  have hclauses : ∀ name ∈ Table.belowLimit.inputs.map Clause.name,
      first[name]?.getD .null = second[name]?.getD .null := by decide +kernel
  have hcells : ∀ name ∈ Table.belowLimit.cellNames,
      name ∉ Table.belowLimit.inputs.map Clause.name → first[name]? = second[name]? := by
    decide +kernel
  exact ⟨hclauses, hcells, report_eq_of_agree _ hclauses hcells⟩

end Decision
