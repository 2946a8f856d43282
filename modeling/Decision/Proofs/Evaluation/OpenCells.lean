import Decision.Proofs.Evaluation.Conclusion
import Decision.Proofs.Evaluation.Session
import Decision.Proofs.Condition.Composition

/-!
# Cells That Test Nothing

A cell may be left open, or it may say that it tests nothing.

The first is decided by the matching itself. The second is a condition like any
other: it is put to the evaluator, which looks at its language, cuts off the
blanks around its text, and finds that nothing is left, or nothing but a minus
sign. Then it looks it up among the cells that it has read, or remembers it. The
answer is the same in the end, whatever the value is. It is never an error, so a
rule goes on to its next cell as it would have done, and what goes wrong there
goes wrong as before.

All these cells have one normal form, which is the open cell. Two tables that
differ only in how they write that nothing is tested have the same normal form
cell by cell, and a table matches what its normal form matches.

## Main definitions

* `InputEntry.TestsNothing`: A cell is open, or a condition that says it is.
* `InputEntry.SameTest`, `Rule.SameTests`: Cells and rules that differ in no other
  way.
* `Table.withTests`: A table with such rules in place of its own.
* `InputEntry.plain`: The normal form of a cell.

## Theorems

* `condition_of_testsNothing`: Every value meets a condition that tests nothing.
* `run_matching_plain`: A rule matches if its normal form does.
* `report_withTests`: It does not matter how it is written that nothing is tested,
  nor what the evaluator remembers.
-/

namespace Decision

open Consultation

/-! ## Cells and rules -/

namespace InputEntry

/-- A cell tests nothing: it is left open, or it is a condition in the simple language
    with no more than a minus sign in it, blanks apart. -/
def TestsNothing : InputEntry → Prop
  | .any => True
  | .test cell => cell.isSimple = true ∧
      (Text.trim cell.text.toList = [] ∨ Text.trim cell.text.toList = ['-'])

instance : DecidablePred TestsNothing
  | .any => .isTrue trivial
  | .test cell => inferInstanceAs (Decidable (cell.isSimple = true ∧
      (Text.trim cell.text.toList = [] ∨ Text.trim cell.text.toList = ['-'])))

/-- Two cells are the same, or neither of them tests anything. -/
def SameTest (first second : InputEntry) : Prop :=
  first = second ∨ first.TestsNothing ∧ second.TestsNothing

/-- The normal form of a cell, in which a cell that tests nothing is left open. -/
def plain (entry : InputEntry) : InputEntry := if entry.TestsNothing then .any else entry

/-- Cells that differ only in how they test nothing have one normal form. -/
theorem plain_eq_of_sameTest {first second : InputEntry} (h : first.SameTest second) :
    first.plain = second.plain := by
  rcases h with rfl | ⟨hfirst, hsecond⟩
  · rfl
  · rw [plain, plain, if_pos hfirst, if_pos hsecond]

end InputEntry

/-- Two rules have the same id and the same output cells, and input cells that differ
    only in how they test nothing. -/
structure Rule.SameTests (first second : Rule) : Prop where
  id_eq : first.id = second.id
  inputs : List.Forall₂ InputEntry.SameTest first.inputs second.inputs
  outputs_eq : first.outputs = second.outputs

/-- The rule with all its input cells in normal form. -/
def Rule.plain (rule : Rule) : Rule := { rule with inputs := rule.inputs.map InputEntry.plain }

theorem Rule.plain_eq_of_sameTests {first second : Rule} (h : first.SameTests second) :
    first.plain = second.plain := by
  have hinputs : first.inputs.map InputEntry.plain = second.inputs.map InputEntry.plain := by
    rw [← List.forall₂_eq_eq_eq, List.forall₂_map_left_iff, List.forall₂_map_right_iff]
    exact h.inputs.imp fun _ _ => InputEntry.plain_eq_of_sameTest
  rw [plain, plain, h.id_eq, h.outputs_eq, hinputs]

/-- The table with other rules in place of its own, which differ from them only in how
    they test nothing. -/
def Table.withTests (table : Table) (rules : List Rule)
    (h : List.Forall₂ Rule.SameTests table.rules rules) : Table where
  toDraft := { table.toDraft with rules := rules }
  valid := {
    inputs_nodup := table.valid.inputs_nodup
    outputs_nodup := table.valid.outputs_nodup
    outputs_ne_nil := table.valid.outputs_ne_nil
    inputs_length := by
      intro rule hrule
      rcases List.forall₂_iff_get.mp h with ⟨hlength, hget⟩
      rcases List.get_of_mem hrule with ⟨⟨k, hk⟩, rfl⟩
      have hk' : k < table.rules.length := hlength ▸ hk
      rw [← (hget k hk' hk).inputs.length_eq]
      exact table.valid.inputs_length _ (List.get_mem _ _)
    outputs_length := by
      intro rule hrule
      rcases List.forall₂_iff_get.mp h with ⟨hlength, hget⟩
      rcases List.get_of_mem hrule with ⟨⟨k, hk⟩, rfl⟩
      have hk' : k < table.rules.length := hlength ▸ hk
      rw [← (hget k hk' hk).outputs_eq]
      exact table.valid.outputs_length _ (List.get_mem _ _)
    collects := table.valid.collects
    single_output := table.valid.single_output
  }

/-! ## Rows -/

/-- The row of a rule whose input cells are in normal form. -/
def Row.plain (row : Row) : Row := { row with rule := row.rule.plain }

theorem Row.keeps_plain : Row.Keeps Row.plain := ⟨fun _ => rfl, fun _ => rfl, fun _ => rfl⟩

theorem Table.map_plain_rows {table : Table} {rules : List Rule}
    (h : List.Forall₂ Rule.SameTests table.rules rules) :
    (table.withTests rules h).rows.map Row.plain = table.rows.map Row.plain := by
  have hrules : rules.map Rule.plain = table.rules.map Rule.plain := by
    rw [← List.forall₂_eq_eq_eq, List.forall₂_map_left_iff, List.forall₂_map_right_iff]
    exact h.flip.imp fun _ _ hsame => (Rule.plain_eq_of_sameTests hsame).symm
  have hrows : ∀ rules, (Row.listFrom 0 rules).map Row.plain =
      Row.listFrom 0 (rules.map Rule.plain) :=
    fun rules => (Row.listFrom_map Rule.plain 0 rules).symm
  show (Row.listFrom 0 rules).map Row.plain = (Row.listFrom 0 table.rules).map Row.plain
  rw [hrows, hrows, hrules]

/-! ## Matching -/

/-- Every value meets a condition that tests nothing. -/
theorem Evaluator.condition_of_testsNothing {cell : Expression}
    (h : (InputEntry.test cell).TestsNothing) (value : Value) (context : Context) :
    simple.condition cell value context = .ok true := by
  rcases cell with ⟨text, language⟩
  have hparse : Condition.parse? text = some .any :=
    (Condition.parse?_eq_some_iff text .any).mpr (Or.inl ⟨h.2, rfl⟩)
  rw [condition_of_parse? hparse, Expression.checkLanguage_of_isSimple h.1]
  rfl

namespace Engine

variable {converter? : String → Option Converter}

/-- A cell that tests nothing is passed, whether or not it is left open. -/
theorem run_allHold_plain (context : Context) (clauses : List (Clause .input))
    (entries : List InputEntry) :
    (InputEntry.allHold context clauses (entries.map InputEntry.plain)).run
        (Engine.simple converter?).reply =
      (InputEntry.allHold context clauses entries).run (Engine.simple converter?).reply := by
  induction clauses generalizing entries with
  | nil => rw [run_allHold_nil, run_allHold_nil]
  | cons clause clauses ih =>
      cases entries with
      | nil => rfl
      | cons entry entries =>
          cases entry with
          | any =>
              rw [List.map_cons, InputEntry.plain, ite_self, run_allHold_any, run_allHold_any, ih]
          | test cell =>
              rw [List.map_cons, InputEntry.plain]
              by_cases h : (InputEntry.test cell).TestsNothing
              · have htrue : (Engine.simple converter?).evaluator.condition cell
                    (context.input clause.name) context = .ok true :=
                  Evaluator.condition_of_testsNothing h _ context
                rw [if_pos h, run_allHold_any, run_allHold_test, htrue, ih]
              · -- The cell is put to the evaluator on both sides.
                rw [if_neg h, run_allHold_test, run_allHold_test, ih]

/-- A rule matches if its normal form does. -/
theorem run_matching_plain (inputs : List (Clause .input)) (context : Context)
    (rows : List Row) :
    (Row.matching inputs context (rows.map Row.plain)).run (Engine.simple converter?).reply =
      ((Row.matching inputs context rows).run (Engine.simple converter?).reply).map
        (List.map Row.plain) :=
  run_matching_map fun row _ => run_allHold_plain context inputs row.rule.inputs

/-! ## Reports -/

/-- What an evaluation makes of the rows of a table it makes of their normal forms. -/
theorem report_eq_plain (table : Table) (supplied : Variables) :
    (Engine.simple converter?).report table supplied =
      ((Context.ofInputs table.inputs supplied).run (Engine.simple converter?).reply >>=
        fun context =>
          (Row.matching table.inputs context (table.rows.map Row.plain)).run
              (Engine.simple converter?).reply >>= fun matched =>
            (table.concluded context matched).run (Engine.simple converter?).reply) := by
  rw [run_report_concluded]
  refine congrArg _ (funext fun context => ?_)
  rw [run_matching_plain]
  cases (Row.matching table.inputs context table.rows).run (Engine.simple converter?).reply with
  | error e => rfl
  | ok matched => exact (run_concluded_map Row.keeps_plain table context matched).symm

end Engine

namespace Cache

/-- A memory that has been used for anything gives the report that is given without
    one. -/
theorem report_serveAll (converter? : String → Option Converter) (table : Table)
    (supplied : Variables) (requests : List Request) :
    (report converter? table supplied (serveAll requests empty).2).1 =
      (Engine.simple converter?).report table supplied := by
  have hremembers := (remembers_serveAll remembers_empty requests).2.1
  exact (remembers_runWith hremembers converter? (table.consult supplied)).1

/-- It makes no difference to an evaluation in which way the cells of a table say that
    they test nothing, whatever the two evaluators have read before. -/
theorem report_withTests (converter? : String → Option Converter) (table : Table)
    {rules : List Rule} (h : List.Forall₂ Rule.SameTests table.rules rules)
    (supplied : Variables) (requests others : List Request) :
    (report converter? (table.withTests rules h) supplied (serveAll others empty).2).1 =
      (report converter? table supplied (serveAll requests empty).2).1 := by
  rw [report_serveAll, report_serveAll, Engine.report_eq_plain, Engine.report_eq_plain,
    Table.map_plain_rows]
  rfl

end Cache

/-! ## An instance -/

/-- Two rules, each with a cell that tests nothing. The second one mentions a name. -/
def Draft.halfOpen : Draft where
  id := "half open"
  inputs := [{ name := "age" }, { name := "colour" }]
  outputs := [{ name := "fee" }]
  rules := [⟨none, [.any, .test ⟨"\"red\"", none⟩], [⟨"1", none⟩]⟩,
    ⟨none, [.test ⟨"-", none⟩, .test ⟨"limit", none⟩], [⟨"2", none⟩]⟩]
  policy := .ruleOrder

def Table.halfOpen : Table := ⟨.halfOpen, Draft.valid_of_fault?_eq_none (by decide +kernel)⟩

/-- The same rules, where the open cell says that it is open, and the other one is. -/
def Rule.halfOpen : List Rule :=
  [⟨none, [.test ⟨"\u00a0-\t", some "SimPLE"⟩, .test ⟨"\"red\"", none⟩], [⟨"1", none⟩]⟩,
    ⟨none, [.any, .test ⟨"limit", none⟩], [⟨"2", none⟩]⟩]

/-- One evaluator is new, and the other has read a cell of the other rules before. The
    name is missing for both. -/
theorem Cache.report_halfOpen :
    let supplied : Variables := (∅ : Variables).insert "colour" (.string "red")
    let request : Request := .condition ⟨"\u00a0-\t", none⟩ .null (.ofVariables ∅)
    let converter? := Registry.standard.converter?
    ∃ h : List.Forall₂ Rule.SameTests Table.halfOpen.rules Rule.halfOpen,
      (report converter? .halfOpen supplied empty).1 =
          .error (.expression (.unknownVariable "limit" "limit")) ∧
        (report converter? (Table.halfOpen.withTests Rule.halfOpen h) supplied
          (serveAll [request] empty).2).1 = (report converter? .halfOpen supplied empty).1 := by
  intro supplied request converter?
  have hfirst : List.Forall₂ InputEntry.SameTest
      [.any, .test ⟨"\"red\"", none⟩]
      [.test ⟨"\u00a0-\t", some "SimPLE"⟩, .test ⟨"\"red\"", none⟩] :=
    .cons (Or.inr ⟨trivial, by decide +kernel⟩) (.cons (Or.inl rfl) .nil)
  have hsecond : List.Forall₂ InputEntry.SameTest
      [.test ⟨"-", none⟩, .test ⟨"limit", none⟩] [.any, .test ⟨"limit", none⟩] :=
    .cons (Or.inr ⟨by decide +kernel, trivial⟩) (.cons (Or.inl rfl) .nil)
  have h : List.Forall₂ Rule.SameTests Table.halfOpen.rules Rule.halfOpen :=
    .cons ⟨rfl, hfirst, rfl⟩ (.cons ⟨rfl, hsecond, rfl⟩ .nil)
  refine ⟨h, by decide +kernel, ?_⟩
  exact report_withTests converter? .halfOpen h supplied [] [request]

end Decision
