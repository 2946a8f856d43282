import Decision.Proofs.Evaluation.Account
import Decision.Proofs.Evaluation.Conclusion
import Decision.Proofs.Evaluation.Labels

/-!
# Rules That Do Not Match

A rule that does not match has no influence.

Such a rule may be put anywhere into a table. The rules behind it move down by
one place, and with them the numbers by which they are known: in a report, and
in the labels of rules without an id, which end up in errors. Nothing else
changes, whatever the policy is.

No stage after the matching looks at the place of a rule except to pass it on.
So the proof goes from stage to stage with two evaluations side by side. Values
are moved by a function, and errors are related. For errors a function would not
do, because a label does not show whether it is a number or an id that looks like
one. `EvalError.Moved` goes back to the rules that match and says which of them an
error names.

## Main definitions

* `Table.insertRule`: A table with one more rule.
* `Engine.Rejects`: A rule does not match, and no cell fails on the way.
* `Report.moved`: A report after the rules have moved.
* `EvalError.Moved`: An error after the rules have moved.

## Theorems

* `run_allHold_eq_false_iff`: A rule is rejected if its cells do not all hold.
* `run_matching_insertIdx`: A rule that is rejected is passed over.
* `covers_moved`: A policy shows the places of the rules in labels only.
* `corresponds_finish`: An aggregator does not show them.
* `report_insertRule`: An evaluation with one more rule that does not match.
-/

namespace Decision

open Consultation

/-! ## Tables with one more rule -/

/-- The table with one more rule at some place. A place beyond the end leaves the
    table as it is. -/
def Table.insertRule (table : Table) (place : Nat) (rule : Rule)
    (hinputs : rule.inputs.length = table.inputs.length)
    (houtputs : rule.outputs.length = table.outputs.length) : Table where
  toDraft := { table.toDraft with rules := table.rules.insertIdx place rule }
  valid := {
    inputs_nodup := table.valid.inputs_nodup
    outputs_nodup := table.valid.outputs_nodup
    outputs_ne_nil := table.valid.outputs_ne_nil
    inputs_length := by
      intro other hother
      rcases List.eq_or_mem_of_mem_insertIdx hother with rfl | hother
      · exact hinputs
      · exact table.valid.inputs_length other hother
    outputs_length := by
      intro other hother
      rcases List.eq_or_mem_of_mem_insertIdx hother with rfl | hother
      · exact houtputs
      · exact table.valid.outputs_length other hother
    collects := table.valid.collects
    single_output := table.valid.single_output
  }

/-! ## Moving -/

/-- The place of a rule after another was put in. -/
def movedFrom (place index : Nat) : Nat := if place ≤ index then index + 1 else index

def Row.moved (place : Nat) (row : Row) : Row := { row with index := movedFrom place row.index }

def Candidate.moved (place : Nat) (candidate : Candidate) : Candidate :=
  { candidate with row := candidate.row.moved place }

/-- A folded value comes from no rule, so it does not move. -/
def RuleResult.moved (place : Nat) (result : RuleResult) : RuleResult :=
  { result with index := result.index.map (movedFrom place) }

def Result.moved (place : Nat) (result : Result) : Result :=
  ⟨result.rules.map (RuleResult.moved place)⟩

/-- A report after a rule was put in that it does not mention. -/
def Report.moved (place : Nat) (report : Report) : Report where
  result := report.result.moved place
  matched := report.matched.map (movedFrom place)
  selected := report.selected.map (movedFrom place)

/-- An error after a rule was put in, given the rules that match. -/
inductive EvalError.Moved (place : Nat) (candidates : List Candidate) :
    EvalError → EvalError → Prop
  /-- All rules that match are named, in their order. -/
  | several : Moved place candidates
      (.multipleMatches (candidates.map fun candidate => candidate.row.label))
      (.multipleMatches (candidates.map fun candidate => (candidate.moved place).row.label))
  /-- The first rule is named, and the first of the others that differs from it. -/
  | conflict {first other : Candidate} {others : List Candidate}
      (hcandidates : candidates = first :: others)
      (hother : (others.find? fun other => other.outputs != first.outputs) = some other) :
      Moved place candidates (.conflictingOutputs first.row.label other.row.label)
        (.conflictingOutputs (first.moved place).row.label (other.moved place).row.label)
  /-- No rule is named. -/
  | unlabelled {e : EvalError} (h : e.labels = []) : Moved place candidates e e

/-! ## Rows with one more rule -/

namespace Row

/-- Rows that all stand behind the new rule move by one place. -/
theorem map_moved_listFrom {place index : Nat} (h : place ≤ index) (rules : List Rule) :
    (listFrom index rules).map (moved place) = listFrom (index + 1) rules := by
  induction rules generalizing index with
  | nil => rfl
  | cons rule rules ih =>
      have hmoved : moved place ⟨index, rule⟩ = ⟨index + 1, rule⟩ := by
        rw [moved, movedFrom, if_pos h]
      rw [listFrom, List.map_cons, ih (by omega), hmoved, listFrom]

/-- The rows of a table with one more rule are the old ones, moved, and the new one
    among them. -/
theorem listFrom_insertIdx (index place : Nat) (rules : List Rule) (rule : Rule) :
    listFrom index (rules.insertIdx place rule) =
      ((listFrom index rules).map (moved (index + place))).insertIdx place
        ⟨index + place, rule⟩ := by
  -- Going down the list, the place counts down by as much as the numbers count up.
  induction place generalizing index rules with
  | zero =>
      rw [List.insertIdx_zero, List.insertIdx_zero, Nat.add_zero,
        map_moved_listFrom (Nat.le_refl index), listFrom]
  | succ place ih =>
      cases rules with
      | nil => rfl
      | cons first rules =>
          -- The first row stands in front of the new one and stays where it is.
          have hstays : moved (index + (place + 1)) ⟨index, first⟩ = ⟨index, first⟩ := by
            have hfront : ¬ index + (place + 1) ≤ index := by omega
            rw [moved, movedFrom, if_neg hfront]
          have hplace : index + 1 + place = index + (place + 1) := by omega
          rw [List.insertIdx_succ_cons, listFrom, ih, hplace, listFrom, List.map_cons, hstays,
            List.insertIdx_succ_cons]

end Row

/-! ## Matching -/

namespace Engine

variable {engine : Engine}

/-- A rule is rejected: one of its cells is answered false, and the values before
    it pass their cells. -/
def Rejects (engine : Engine) (context : Context) (clauses : List (Clause .input))
    (entries : List InputEntry) : Prop :=
  ∃ before clause cell after, clauses.zip entries = before ++ (clause, .test cell) :: after ∧
    (∀ pair ∈ before, pair.2.Passes engine context (context.input pair.1.name)) ∧
    engine.evaluator.condition cell (context.input clause.name) context = .ok false

/-- A rule is rejected by its first cell, or else by those after it. -/
theorem rejects_cons_iff {context : Context} {clause : Clause .input}
    {clauses : List (Clause .input)} {entry : InputEntry} {entries : List InputEntry} :
    engine.Rejects context (clause :: clauses) (entry :: entries) ↔
      (∃ cell, entry = .test cell ∧
        engine.evaluator.condition cell (context.input clause.name) context = .ok false) ∨
      (entry.Passes engine context (context.input clause.name) ∧
        engine.Rejects context clauses entries) := by
  unfold Rejects
  rw [List.zip_cons_cons]
  constructor
  · rintro ⟨before, other, cell, after, hzip, hbefore, hfalse⟩
    cases before with
    | nil =>
        rcases List.cons.inj hzip with ⟨hpair, -⟩
        rcases Prod.mk.inj hpair with ⟨rfl, rfl⟩
        exact Or.inl ⟨cell, rfl, hfalse⟩
    | cons pair before =>
        rcases List.cons.inj hzip with ⟨rfl, hrest⟩
        rw [List.forall_mem_cons] at hbefore
        exact Or.inr ⟨hbefore.1, before, other, cell, after, hrest, hbefore.2, hfalse⟩
  · rintro (⟨cell, rfl, hfalse⟩ | ⟨hpasses, before, other, cell, after, hzip, hbefore, hfalse⟩)
    · exact ⟨[], clause, cell, clauses.zip entries, rfl, List.forall_mem_nil _, hfalse⟩
    · refine ⟨(clause, entry) :: before, other, cell, after, ?_, ?_, hfalse⟩
      · rw [hzip, List.cons_append]
      · exact List.forall_mem_cons.mpr ⟨hpasses, hbefore⟩

/-- A rule is rejected exactly if the answer is that its cells do not all hold. -/
theorem run_allHold_eq_false_iff {context : Context} {clauses : List (Clause .input)}
    {entries : List InputEntry} :
    (InputEntry.allHold context clauses entries).run engine.reply = .ok false ↔
      engine.Rejects context clauses entries := by
  -- Where clauses or cells have come to an end there is no cell left to say no.
  have hend : ∀ {clauses : List (Clause .input)} {entries : List InputEntry},
      clauses.zip entries = [] → ¬ engine.Rejects context clauses entries := by
    rintro clauses entries hnil ⟨before, clause, cell, after, hzip, -⟩
    rw [hnil] at hzip
    exact List.append_ne_nil_of_right_ne_nil before (List.cons_ne_nil _ _) hzip.symm
  induction clauses generalizing entries with
  | nil =>
      rw [run_allHold_nil]
      exact iff_of_false nofun (hend rfl)
  | cons clause clauses ih =>
      cases entries with
      | nil =>
          rw [run_allHold_nil_right]
          exact iff_of_false nofun (hend rfl)
      | cons entry entries =>
          have hrest : (InputEntry.allHold context clauses entries).run engine.reply = .ok false ↔
              engine.Rejects context clauses entries := ih
          rw [rejects_cons_iff, ← hrest]
          cases entry with
          | any =>
              rw [run_allHold_any]
              constructor
              · exact fun hlater => Or.inr ⟨trivial, hlater⟩
              · rintro (⟨cell, hcell, -⟩ | ⟨-, hlater⟩)
                · cases hcell
                · exact hlater
          | test cell =>
              -- The walk ends at a cell that is answered false, or that has no answer.
              rw [run_allHold_test, InputEntry.passes_test_iff]
              simp only [InputEntry.test.injEq, exists_eq_left']
              rcases engine.evaluator.condition cell (context.input clause.name) context with
                reason | _ | _
              · simp only [reduceCtorEq, false_and, or_self]
              · simp only [true_or]
              · simp only [Except.ok.injEq, Bool.true_eq_false, true_and, false_or]

/-- A rule that is rejected is passed over. -/
theorem run_matching_insertIdx {inputs : List (Clause .input)} {context : Context} {row : Row}
    (h : engine.Rejects context inputs row.rule.inputs) (place : Nat) (rows : List Row) :
    (Row.matching inputs context (rows.insertIdx place row)).run engine.reply =
      (Row.matching inputs context rows).run engine.reply := by
  induction place generalizing rows with
  | zero =>
      -- The rule is left without an error, and the others are gone through as before.
      rw [List.insertIdx_zero, Row.matching, run_bind, run_allHold_eq_false_iff.mpr h]
      show ((Row.matching inputs context rows >>= fun others => pure others).run _) = _
      rw [run_bind]
      exact bind_pure _
  | succ place ih =>
      cases rows with
      | nil => rfl
      | cons first rows => simp only [List.insertIdx_succ_cons, Row.matching, run_bind, ih]

/-- Whether a rule matches does not depend on its place. -/
theorem run_matching_moved (inputs : List (Clause .input)) (context : Context) (place : Nat)
    (rows : List Row) :
    (Row.matching inputs context (rows.map (Row.moved place))).run engine.reply =
      ((Row.matching inputs context rows).run engine.reply).map
        (List.map (Row.moved place)) :=
  run_matching_map fun _ _ => rfl

/-! ## Selection -/

variable {place : Nat}

/-- An error names the same rules as before, wherever they stand now. -/
theorem covers_moved (candidates : List Candidate) :
    Row.Covers (Row.moved place) candidates (EvalError.Moved place candidates) where
  unlabelled := .unlabelled
  several := .several
  conflict := .conflict

/-- The same rules are chosen, wherever they stand now. -/
theorem corresponds_chosen {table : Table} {rule : Rule}
    (hinputs : rule.inputs.length = table.inputs.length)
    (houtputs : rule.outputs.length = table.outputs.length) {supplied : Variables}
    (hrejects : engine.Rejects (engine.context table.inputs supplied) table.inputs rule.inputs) :
    Corresponds (Prod.map (List.map (Row.moved place)) (List.map (Candidate.moved place)))
      (EvalError.Moved place (engine.allCandidates table supplied))
      ((table.chosen (engine.context table.inputs supplied)).run engine.reply)
      (((table.insertRule place rule hinputs houtputs).chosen
        (engine.context table.inputs supplied)).run engine.reply) := by
  have hrows : (table.insertRule place rule hinputs houtputs).rows =
      (table.rows.map (Row.moved place)).insertIdx place ⟨place, rule⟩ := by
    have hlist := Row.listFrom_insertIdx 0 place table.rules rule
    rw [Nat.zero_add] at hlist
    exact hlist
  have hvalue : ∀ clause ∈ table.inputs,
      (engine.context table.inputs supplied).input clause.name = engine.bound supplied clause :=
    fun clause hmem => engine.input_context table.valid.inputs_nodup supplied hmem
  have hmatching : Corresponds (List.map (Row.moved place))
      (EvalError.Moved place (engine.allCandidates table supplied))
      ((Row.matching table.inputs (engine.context table.inputs supplied) table.rows).run
        engine.reply)
      ((Row.matching table.inputs (engine.context table.inputs supplied)
        (table.insertRule place rule hinputs houtputs).rows).run engine.reply) := by
    rw [hrows, run_matching_insertIdx hrejects, run_matching_moved]
    exact corresponds_map fun e he => .unlabelled (unlabelled_matching _ _ _ _ e he)
  simp only [Table.chosen, run_bind]
  refine corresponds_bind hmatching fun matched hmatched => ?_
  -- An error names rules among those that were found to match here.
  rcases follows_of_run_eq_ok (engine.follows_matching hvalue table.rows) hmatched with
    ⟨_, hvalues⟩
  have hcandidates : engine.allCandidates table supplied =
      matched.map (engine.candidate (engine.context table.inputs supplied)) := by
    rw [← Except.ok.inj hvalues]
    rfl
  have hcells : ∀ row, (Row.moved place row).rule.outputs = row.rule.outputs := fun _ => rfl
  rw [hcandidates]
  exact corresponds_bind (corresponds_select hcells _ _ _ _ (covers_moved _))
    fun selected _ => .ok (matched, selected)

/-! ## Results -/

theorem run_results_moved (clauses : List (Clause .output)) (selected : List Candidate) :
    (Candidate.results clauses (selected.map (Candidate.moved place))).run engine.reply =
      ((Candidate.results clauses selected).run engine.reply).map
        (List.map (RuleResult.moved place)) :=
  run_results_map (fun _ _ => rfl) clauses selected

end Engine

namespace Aggregator

/-- A column is folded into one value or none, unless it holds something that is not a
    number. -/
theorem apply_cases (aggregator : Aggregator) (name : String) (column : List Value) :
    (∃ value?, aggregator.apply name column = .ok (folded name value?)) ∨
      ∃ value, aggregator.apply name column = .error (.nonNumeric aggregator value) := by
  unfold apply
  split
  · exact Or.inl ⟨_, rfl⟩
  · dsimp only
    split
    · exact Or.inr ⟨_, rfl⟩
    · exact Or.inl ⟨_, rfl⟩

/-- A folded value does not move. -/
theorem moved_folded (place : Nat) (name : String) (value? : Option Value) :
    (folded name value?).moved place = folded name value? := by
  cases value? <;> rfl

end Aggregator

/-- A column does not show which rules it comes from. -/
theorem Result.column_moved (place : Nat) (result : Result) (name : String) :
    (result.moved place).column name = result.column name := by
  unfold Result.moved column
  rw [List.filterMap_map]
  rfl

/-- A report moves with the rules that match and those that count. -/
theorem Report.moved_mk (place : Nat) (result : Result) (matched : List Row)
    (selected : List Candidate) :
    Report.moved place
        ⟨result, matched.map Row.index, selected.map fun candidate => candidate.row.index⟩ =
      ⟨result.moved place, (matched.map (Row.moved place)).map Row.index,
        (selected.map (Candidate.moved place)).map fun candidate => candidate.row.index⟩ := by
  simp only [Report.moved, List.map_map]
  rfl

namespace Table

/-- No aggregator looks at the places of the rules. -/
theorem corresponds_finish (table : Table) (place : Nat) (candidates : List Candidate)
    (results : List RuleResult) :
    Corresponds (Result.moved place) (EvalError.Moved place candidates) (table.finish results)
      (table.finish (results.map (RuleResult.moved place))) := by
  have hcolumn : ∀ name, (⟨results.map (RuleResult.moved place)⟩ : Result).column name =
      (⟨results⟩ : Result).column name := Result.column_moved place ⟨results⟩
  unfold finish
  split
  · next aggregator clause _ _ =>
      rw [hcolumn]
      rcases aggregator.apply_cases clause.name ((⟨results⟩ : Result).column clause.name) with
        ⟨value?, happly⟩ | ⟨value, happly⟩
      · -- A folded value has no place, so moving it changes nothing.
        rw [happly]
        have hfolded : Corresponds (Result.moved place) (EvalError.Moved place candidates)
            (.ok (Aggregator.folded clause.name value?))
            (.ok ((Aggregator.folded clause.name value?).moved place)) := .ok _
        rw [Aggregator.moved_folded] at hfolded
        exact hfolded
      · rw [happly]
        exact .error (.unlabelled rfl)
  · exact Corresponds.ok (Result.mk results)

theorem corresponds_reported (table : Table) (place : Nat) (candidates : List Candidate)
    (matched : List Row) (selected : List Candidate) (results : List RuleResult) :
    Corresponds (Report.moved place) (EvalError.Moved place candidates)
      (table.reported matched selected results)
      (table.reported (matched.map (Row.moved place)) (selected.map (Candidate.moved place))
        (results.map (RuleResult.moved place))) := by
  unfold reported
  refine corresponds_bind (table.corresponds_finish place candidates results) fun result _ => ?_
  rw [← Report.moved_mk]
  exact .ok _

end Table

/-! ## Reports -/

namespace Engine

variable (engine : Engine) {table : Table} {rule : Rule} {supplied : Variables}

/-- A rule that does not match has no influence on an evaluation. -/
theorem report_insertRule (place : Nat) (hinputs : rule.inputs.length = table.inputs.length)
    (houtputs : rule.outputs.length = table.outputs.length)
    (hrejects : ∀ context,
      (Context.ofInputs table.inputs supplied).run engine.reply = .ok context →
        engine.Rejects context table.inputs rule.inputs) :
    Corresponds (Report.moved place)
      (EvalError.Moved place (engine.allCandidates table supplied))
      (engine.report table supplied)
      (engine.report (table.insertRule place rule hinputs houtputs) supplied) := by
  rw [run_report, run_report]
  -- The inputs are bound in the same way, and from there on the rules have moved.
  have hbind : Corresponds id (EvalError.Moved place (engine.allCandidates table supplied))
      ((Context.ofInputs table.inputs supplied).run engine.reply)
      ((Context.ofInputs table.inputs supplied).run engine.reply) := by
    cases hrun : (Context.ofInputs table.inputs supplied).run engine.reply with
    | ok context => exact .ok context
    | error e => exact .error (.unlabelled (unlabelled_bindInputs _ _ _ e hrun))
  refine corresponds_bind hbind fun context hcontext => ?_
  have hknown := engine.eq_context_of_run hcontext
  have hrejected := hrejects context hcontext
  rw [hknown] at hrejected ⊢
  refine corresponds_bind (corresponds_chosen hinputs houtputs hrejected) fun chosen _ => ?_
  have hresults : Corresponds (List.map (RuleResult.moved place))
      (EvalError.Moved place (engine.allCandidates table supplied))
      ((Candidate.results table.outputs chosen.2).run engine.reply)
      ((Candidate.results table.outputs (chosen.2.map (Candidate.moved place))).run
        engine.reply) := by
    rw [run_results_moved]
    exact corresponds_map fun e he => .unlabelled (unlabelled_results _ _ _ e he)
  exact corresponds_bind hresults fun results _ => table.corresponds_reported place _ _ _ results

end Engine

/-! ## An instance -/

/-- Three rules of which one only may match. -/
def Draft.members : Draft where
  id := "members"
  inputs := [{ name := "age" }, { name := "years" }]
  outputs := [{ name := "fee" }]
  rules := [⟨none, [.any, .any], [⟨"3", none⟩]⟩,
    ⟨some "adult", [.test ⟨">= 18", none⟩, .any], [⟨"2", none⟩]⟩,
    ⟨none, [.any, .test ⟨"< 5", none⟩], [⟨"1", none⟩]⟩]

def Table.members : Table := ⟨.members, Draft.valid_of_fault?_eq_none (by decide +kernel)⟩

/-- A rule for adults who have been members for long. -/
def Rule.longMember : Rule :=
  ⟨none, [.test ⟨">= 18", none⟩, .test ⟨">= 5", none⟩], [⟨"0", none⟩]⟩

/-- An adult who has not been a member for long. -/
def Variables.newMember : Variables :=
  (∅ : Variables).insertMany [("age", .int 42), ("years", .int 3)]

theorem Engine.report_longMember :
    Rule.longMember.inputs.length = Table.members.inputs.length ∧
      Rule.longMember.outputs.length = Table.members.outputs.length ∧
      (∀ context, (Context.ofInputs Table.members.inputs .newMember).run standard.reply =
        .ok context → standard.Rejects context Table.members.inputs Rule.longMember.inputs) ∧
      Corresponds (Report.moved 1) (EvalError.Moved 1 (standard.allCandidates .members .newMember))
        (standard.report .members .newMember)
        (standard.report (Table.members.insertRule 1 .longMember rfl rfl) .newMember) := by
  have hrejects : ∀ context, (Context.ofInputs Table.members.inputs .newMember).run
      standard.reply = .ok context →
        standard.Rejects context Table.members.inputs Rule.longMember.inputs := by
    intro context hcontext
    rw [eq_context_of_run standard hcontext]
    -- The first cell is passed, and the second is answered false.
    refine ⟨[({ name := "age" }, .test ⟨">= 18", none⟩)], { name := "years" }, ⟨">= 5", none⟩, [],
      rfl, ?_, by decide +kernel⟩
    rw [List.forall_mem_singleton]
    show standard.evaluator.condition _ _ _ = .ok true
    decide +kernel
  exact ⟨rfl, rfl, hrejects, report_insertRule standard 1 rfl rfl hrejects⟩

/-- The rule without an id behind the new one gets a new number, and the one before it
    keeps its own. -/
example : Engine.standard.report .members .newMember =
      .error (.multipleMatches ["#1", "adult", "#3"]) ∧
    Engine.standard.report (Table.members.insertRule 1 .longMember rfl rfl) .newMember =
      .error (.multipleMatches ["#1", "adult", "#4"]) := by
  decide +kernel

end Decision
