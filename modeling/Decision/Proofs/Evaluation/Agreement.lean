import Decision.Proofs.Condition.Outcome
import Decision.Proofs.Condition.Reading
import Decision.Proofs.Evaluation.Labels
import Decision.Proofs.Evaluation.Origins
import Decision.Proofs.Evaluation.Scope
import Decision.Proofs.Value.Equality

/-!
# Rules That Say the Same

The policy ANY on rules whose output cells are the same.

Such rules have one list of outputs between them, whatever the variables hold,
so nothing seems to be left to compare. Yet the policy compares, and it asks of
the list whether it is equal to itself. A NaN in it, at any depth, makes it
unequal, and then two rules that cannot differ are reported to differ.

No cell in the simple language says NaN by itself. The grammar has no literal
for it, and a decimal number too large for a double is read as an infinity. So
the NaN was brought in by a variable, or by an input clause that converts a
text to one.

Where no NaN comes up, the rules that match are as good as the first of them,
and the outcome is that of the policy FIRST, down to the error.

## Main definitions

* `Engine.Unanimous`: What ANY makes of rules that say the same.

## Theorems

* `not_holdsNaN_of_parse?`: No literal has a NaN in it.
* `holdsNaN_output_iff`: An output has a NaN in it if a name in its cell has.
* `run_select_any_eq_error_iff`: When rules that say the same are found to differ.
* `run_select_any_eq_first`: Otherwise ANY selects what FIRST does.
* `unanimous_of_same`: What ANY makes of rules that say the same.
-/

namespace Decision

open Consultation

/-! ## Where a NaN comes from -/

namespace Binary64

theorem isNaN_ofRatio (negative : Bool) (n d : Nat) : (ofRatio negative n d).isNaN = false :=
  decide_eq_false (Nat.not_lt.mpr (Nat.min_le_right _ _))

/-- No decimal number is read as a NaN. -/
theorem isNaN_ofDecimal (negative : Bool) (d : Decimal) : (ofDecimal negative d).isNaN = false := by
  unfold ofDecimal
  split
  · rfl
  · split
    · exact decide_eq_false (Nat.lt_irrefl _)
    · split <;> exact isNaN_ofRatio _ _ _

end Binary64

/-- No literal has a NaN in it, because none is written as one. -/
theorem Operand.not_holdsNaN_of_parse? {text : String} {value : Value}
    (h : parse? text = some (.literal value)) : ¬ value.HoldsNaN := by
  rcases (parse?_eq_some_iff text _).mp h with ⟨_, hnull⟩ | hwritten
  · rw [Operand.literal.inj hnull]
    exact nofun
  · generalize Text.trim text.toList = cs at hwritten
    cases hwritten with
    | float hminus hwhole hfraction =>
        rintro (hnan | _)
        rw [Binary64.isNaN_ofDecimal] at hnan
        exact Bool.false_ne_true hnan
    | _ => exact nofun

/-- An output has a NaN in it exactly if it is the value of a name and that value
    has. -/
theorem Evaluator.holdsNaN_output_iff {cell : Expression} {context : Context} {value : Value}
    (h : simple.output cell context = .ok value) :
    value.HoldsNaN ↔
      ∃ name ∈ cell.operandNames, ∃ held, context.get? name = some held ∧ held.HoldsNaN := by
  rcases exists_of_bind_eq_ok h with ⟨operand, hread, hproduce⟩
  have hvalue : operand.resolve context.get? = .ok value :=
    (Expression.named_eq_ok_iff cell _ value).mp hproduce
  have hparse : Operand.parse? cell.text = some operand := by
    rcases exists_of_bind_eq_ok hread with ⟨_, _, hfound⟩
    unfold Expression.readWith at hfound
    split at hfound
    · next found hparse =>
        rw [hparse, Except.ok.inj hfound]
    · cases hfound
  simp only [Expression.operandNames, hread]
  cases operand with
  | literal literal =>
      rw [← Except.ok.inj hvalue]
      refine iff_of_false (Operand.not_holdsNaN_of_parse? hparse) ?_
      rintro ⟨name, hname, _⟩
      exact List.not_mem_nil hname
  | named name =>
      have hget : context.get? name = some value := by
        simp only [Operand.resolve] at hvalue
        split at hvalue
        · next found hget =>
            rw [hget, Except.ok.inj hvalue]
        · cases hvalue
      simp only [Operand.names, List.mem_singleton, exists_eq_left, hget, Option.some.injEq,
        exists_eq_left']

namespace Engine

/-- Some cells yield a NaN exactly if one of them has a name whose value holds
    one. -/
theorem holdsNaN_of_yields_iff {converter? : String → Option Converter} {context : Context}
    {cells : List Expression} {outputs : List Value}
    (h : (Engine.simple converter?).Yields context cells outputs) :
    (∃ value ∈ outputs, value.HoldsNaN) ↔
      ∃ cell ∈ cells, ∃ name ∈ cell.operandNames, ∃ held,
        context.get? name = some held ∧ held.HoldsNaN := by
  induction h with
  | nil => simp only [List.not_mem_nil, false_and, exists_false]
  | cons hfirst _ ih =>
      simp only [List.exists_mem_cons_iff, ih, Evaluator.holdsNaN_output_iff hfirst]

/-! ## Selection among rules that say the same -/

section Same

variable {engine : Engine} {clauses : List (Clause .output)} {context : Context}
  {cells : List Expression} {rows : List Row} {outputs : List Value}

/-- Rules with the same cells have the same outputs. -/
theorem run_ofRows_of_same (hsame : ∀ row ∈ rows, row.rule.outputs = cells)
    (h : (Expression.outputs context cells).run engine.reply = .ok outputs) :
    (Candidate.ofRows context rows).run engine.reply =
      .ok (rows.map fun row => ⟨row, outputs⟩) := by
  induction rows with
  | nil => rfl
  | cons row rows ih =>
      rw [List.forall_mem_cons] at hsame
      have hrow : (Expression.outputs context row.rule.outputs).run engine.reply = .ok outputs := by
        rw [hsame.1, h]
      simp only [Candidate.ofRows, Candidate.ofRow, run_bind, hrow]
      show ((Candidate.ofRows context rows).run engine.reply >>= _) = _
      rw [ih hsame.2]
      rfl

/-- Rules with the same cells fail as the first of them does. -/
theorem run_ofRows_of_error {row : Row} {e : EvalError}
    (h : (Expression.outputs context row.rule.outputs).run engine.reply = .error e)
    (rows : List Row) :
    (Candidate.ofRows context (row :: rows)).run engine.reply = .error e := by
  simp only [Candidate.ofRows, Candidate.ofRow, run_bind, h]
  rfl

/-- Of rules with the same outputs the first counts, unless there are two and the
    outputs are not equal to themselves. -/
theorem agreed_of_same (head : Row) (others : List Row) :
    Candidate.agreed ((head :: others).map fun row => ⟨row, outputs⟩) =
      match others with
      | next :: _ =>
          if (outputs == outputs) = true then pure [⟨head, outputs⟩]
          else fail (.conflictingOutputs head.label next.label)
      | [] => pure [⟨head, outputs⟩] := by
  rw [List.map_cons, Candidate.agreed]
  cases others with
  | nil => rfl
  | cons next others =>
      dsimp only
      by_cases hself : (outputs == outputs) = true
      · -- Nobody is found to differ.
        have hnone : ((next :: others).map fun row => (⟨row, outputs⟩ : Candidate)).find?
            (fun other => other.outputs != outputs) = none := by
          rw [List.find?_eq_none]
          intro candidate hcandidate
          rcases List.mem_map.mp hcandidate with ⟨row, _, rfl⟩
          rw [bne, hself]
          exact Bool.false_ne_true
        rw [hnone, if_pos hself]
      · have hsome : ((next :: others).map fun row => (⟨row, outputs⟩ : Candidate)).find?
            (fun other => other.outputs != outputs) = some ⟨next, outputs⟩ := by
          refine List.find?_cons_of_pos ?_
          show (outputs != outputs) = true
          rw [bne, Bool.eq_false_iff.mpr hself]
          rfl
        rw [hsome, if_neg hself]

/-- Rules with the same outputs are found to differ if there are two of them and the
    outputs are not equal to themselves. Those named are the first two. -/
theorem run_agreed_eq_error_iff {reply : (call : Call) → call.Reply} {first second : String} :
    (Candidate.agreed (rows.map fun row => ⟨row, outputs⟩)).run reply =
        .error (.conflictingOutputs first second) ↔
      ∃ head next others, rows = head :: next :: others ∧ (outputs == outputs) = false ∧
        first = head.label ∧ second = next.label := by
  -- Without a second rule there is nobody to differ.
  rcases rows with _ | ⟨head, _ | ⟨next, others⟩⟩
  · constructor
    · intro h
      cases h
    · rintro ⟨_, _, _, hrows, _⟩
      cases hrows
  · rw [agreed_of_same]
    constructor
    · intro h
      cases h
    · rintro ⟨_, _, _, hrows, _⟩
      cases hrows
  · rw [agreed_of_same]
    dsimp only
    constructor
    · intro h
      by_cases hself : (outputs == outputs) = true
      · rw [if_pos hself] at h
        cases h
      · rw [if_neg hself] at h
        have hlabels := Except.error.inj h
        rw [EvalError.conflictingOutputs.injEq] at hlabels
        exact ⟨head, next, others, rfl, Bool.eq_false_iff.mpr hself, hlabels.1.symm,
          hlabels.2.symm⟩
    · rintro ⟨head', next', others', hrows, hself, hfirst, hsecond⟩
      rw [List.cons.injEq, List.cons.injEq] at hrows
      rw [if_neg (Bool.eq_false_iff.mp hself), hfirst, hsecond, hrows.1, hrows.2.1]
      rfl

/-- Rules with the same cells are found to differ exactly if there are two of them
    and their outputs have a NaN in them. -/
theorem run_select_any_eq_error_iff (hsame : ∀ row ∈ rows, row.rule.outputs = cells)
    (first second : String) :
    (HitPolicy.any.select clauses context rows).run engine.reply =
        .error (.conflictingOutputs first second) ↔
      ∃ head next others outputs, rows = head :: next :: others ∧
        engine.Yields context cells outputs ∧ (∃ value ∈ outputs, value.HoldsNaN) ∧
        first = head.label ∧ second = next.label := by
  simp only [HitPolicy.select, run_bind]
  cases hcells : (Expression.outputs context cells).run engine.reply with
  | error e =>
      refine iff_of_false (fun herror => ?_) ?_
      · cases rows with
        | nil => cases herror
        | cons head others =>
            rw [← (List.forall_mem_cons.mp hsame).1] at hcells
            rw [run_ofRows_of_error hcells] at herror
            -- The cells have failed, and their errors name no rules.
            have hlabels := unlabelled_outputs context _ _ _ hcells
            rw [Except.error.inj herror] at hlabels
            cases hlabels
      · rintro ⟨_, _, _, outputs, _, hyields, _⟩
        rw [run_outputs_eq_ok_iff.mpr hyields] at hcells
        cases hcells
  | ok outputs =>
      have hyields : engine.Yields context cells outputs := run_outputs_eq_ok_iff.mp hcells
      have hnan : (outputs == outputs) = false ↔ ∃ value ∈ outputs, value.HoldsNaN := by
        rw [Bool.eq_false_iff, ne_eq, Value.list_beq_self_iff]
        simp only [not_forall, not_not, exists_prop]
      rw [run_ofRows_of_same hsame hcells]
      show (Candidate.agreed _).run engine.reply = _ ↔ _
      rw [run_agreed_eq_error_iff]
      constructor
      · rintro ⟨head, next, others, hrows, hself, hlabels⟩
        exact ⟨head, next, others, outputs, hrows, hyields, hnan.mp hself, hlabels⟩
      · rintro ⟨head, next, others, outputs', hrows, hyields', hholds, hlabels⟩
        -- The cells yield the same values whenever they are asked.
        rw [run_outputs_eq_ok_iff.mpr hyields', Except.ok.injEq] at hcells
        rw [hcells] at hholds
        exact ⟨head, next, others, hrows, hnan.mpr hholds, hlabels⟩

/-- If rules with the same cells are not found to differ, ANY selects what FIRST
    selects, or fails in the same way. -/
theorem run_select_any_eq_first (hsame : ∀ row ∈ rows, row.rule.outputs = cells)
    (h : ∀ first second, (HitPolicy.any.select clauses context rows).run engine.reply ≠
      .error (.conflictingOutputs first second)) :
    (HitPolicy.any.select clauses context rows).run engine.reply =
      (HitPolicy.first.select clauses context rows).run engine.reply := by
  cases rows with
  | nil => rfl
  | cons head others =>
      have hhead : head.rule.outputs = cells := hsame head List.mem_cons_self
      simp only [HitPolicy.select, run_bind, List.take_succ_cons, List.take_zero] at h ⊢
      cases hcells : (Expression.outputs context cells).run engine.reply with
      | error e =>
          rw [← hhead] at hcells
          rw [run_ofRows_of_error hcells, run_ofRows_of_error hcells]
          rfl
      | ok outputs =>
          have hone : ∀ row ∈ [head], row.rule.outputs = cells :=
            List.forall_mem_singleton.mpr hhead
          rw [run_ofRows_of_same hsame hcells] at h ⊢
          rw [run_ofRows_of_same hone hcells]
          show (Candidate.agreed _).run engine.reply = _
          have hno : ∀ first second, (Candidate.agreed ((head :: others).map fun row =>
              ⟨row, outputs⟩)).run engine.reply ≠ .error (.conflictingOutputs first second) := h
          -- Rules with the same cells can differ only if their outputs differ from themselves.
          rw [agreed_of_same] at hno ⊢
          cases others with
          | nil => rfl
          | cons next others =>
              dsimp only at hno ⊢
              by_cases hself : (outputs == outputs) = true
              · rw [if_pos hself]
                rfl
              · rw [if_neg hself] at hno
                exact absurd rfl (hno head.label next.label)

end Same

/-! ## Reports on rules that say the same -/

section Reports

variable {engine : Engine} {table : Table} {supplied : Variables}

/-- Under ANY the first of the matching rules counts. -/
theorem selected_of_any (hany : table.policy = .any) {report : Report}
    (h : engine.report table supplied = .ok report) : report.selected = report.matched.take 1 := by
  rcases (engine.report_eq_ok_iff table supplied).mp h with ⟨_, houtcome⟩
  rcases (engine.outcome_eq_ok_iff table supplied).mp houtcome with
    ⟨selected, hselected, _, hmatched, hplaces⟩
  rw [Engine.selected, hany] at hselected
  rw [hplaces, hmatched, ← (HitPolicy.verdict_any_iff.mp hselected).2, candidates, hany,
    ← List.map_take, ← List.map_take, List.map_map]
  rfl

/-- What ANY makes of rules that say the same, where the cells are in the simple
    language. -/
structure Unanimous (engine : Engine) (table : Table) (supplied : Variables)
    (cells : List Expression) : Prop where
  /-- Two rules are found to differ exactly if at least two match, all cells have a
      value, and one of them names something with a NaN in it. -/
  conflict_iff : ∀ first second,
    engine.report table supplied = .error (.conflictingOutputs first second) ↔
      ∃ context head next others outputs,
        (Context.ofInputs table.inputs supplied).run engine.reply = .ok context ∧
        (Row.matching table.inputs context table.rows).run engine.reply =
          .ok (head :: next :: others) ∧
        engine.Yields context cells outputs ∧
        (∃ cell ∈ cells, ∃ name ∈ cell.operandNames, ∃ held,
          context.get? name = some held ∧ held.HoldsNaN) ∧
        first = head.label ∧ second = next.label
  /-- Otherwise the policy might as well be FIRST. -/
  eq_first : ∀ plain : table.aggregator = none,
    (∀ first second, engine.report table supplied ≠ .error (.conflictingOutputs first second)) →
      engine.report table supplied = engine.report (table.withPolicy plain .first) supplied
  /-- A result is that of the first rule that matches. -/
  of_ok : ∀ report place places, engine.report table supplied = .ok report →
    report.matched = place :: places →
      report.selected = [place] ∧ ∃ row result, row.index = place ∧
        table.rules[place]? = some row.rule ∧ report.result.rules = [result] ∧
        result.ComesFrom engine table (engine.context table.inputs supplied) row

/-- Under ANY, rules that say the same are as good as the first of them that
    matches, unless what they say has a NaN in it. -/
theorem unanimous_of_same (converter? : String → Option Converter) (table : Table)
    (supplied : Variables) (cells : List Expression) (hany : table.policy = .any)
    (hsame : ∀ rule ∈ table.rules, rule.outputs = cells) :
    (Engine.simple converter?).Unanimous table supplied cells := by
  have hmatching : ∀ {context : Context} {matched : List Row},
      (Row.matching table.inputs context table.rows).run (Engine.simple converter?).reply =
        .ok matched → ∀ row ∈ matched, row.rule.outputs = cells :=
    fun h row hrow => hsame row.rule (Row.rule_mem_of_mem_listFrom (mem_of_run_matching h hrow))
  have hlabels : ∀ first second, (EvalError.conflictingOutputs first second).labels ≠ [] :=
    fun first second => List.cons_ne_nil first [second]
  refine ⟨?_, ?_, ?_⟩
  · intro first second
    rw [report_eq_error_iff_of_labels (hlabels first second), hany]
    constructor
    · rintro ⟨context, matched, hcontext, hmatched, hselect⟩
      rcases (run_select_any_eq_error_iff (hmatching hmatched) first second).mp hselect with
        ⟨head, next, others, outputs, rfl, hyields, hnan, hnamed⟩
      exact ⟨context, head, next, others, outputs, hcontext, hmatched, hyields,
        (holdsNaN_of_yields_iff hyields).mp hnan, hnamed⟩
    · rintro ⟨context, head, next, others, outputs, hcontext, hmatched, hyields, hnan, hnamed⟩
      exact ⟨context, _, hcontext, hmatched,
        (run_select_any_eq_error_iff (hmatching hmatched) first second).mpr
          ⟨head, next, others, outputs, rfl, hyields,
            (holdsNaN_of_yields_iff hyields).mpr hnan, hnamed⟩⟩
  · intro plain hno
    -- The two evaluations have all stages in common but the selection.
    simp only [report, Table.consult, run_bind]
    refine bind_congr_of_ok fun context hcontext => bind_congr_of_ok fun matched hmatched => ?_
    have hselect : (table.policy.select table.outputs context matched).run
        (Engine.simple converter?).reply =
          (HitPolicy.first.select table.outputs context matched).run
            (Engine.simple converter?).reply := by
      rw [hany]
      refine run_select_any_eq_first (hmatching hmatched) fun first second hselect => ?_
      refine hno first second ?_
      rw [report_eq_error_iff_of_labels (hlabels first second), hany]
      exact ⟨context, matched, hcontext, hmatched, hselect⟩
    rw [hselect]
    rfl
  · intro report place places hreport hplaces
    have hselected : report.selected = [place] := by
      rw [selected_of_any hany hreport, hplaces]
      rfl
    have hcomes := forall₂_comesFrom (Table.plain_of_policy (Or.inr hany)) hreport
    rw [hselected] at hcomes
    rcases List.forall₂_cons_left_iff.mp hcomes with
      ⟨result, results, ⟨row, hrow, hplace, hresult⟩, hnil, hrules⟩
    rw [List.forall₂_nil_left_iff.mp hnil] at hrules
    refine ⟨hselected, row, result, hplace, ?_, hrules, hresult⟩
    rw [← hplace]
    exact Row.mem_listFrom_iff.mp (List.mem_filter.mp hrow).1

end Reports

end Engine

/-! ## An instance -/

/-- Two rules without conditions whose output is the same variable. -/
def Draft.sameReading : Draft where
  id := "same reading"
  outputs := [{ name := "value" }]
  rules := [⟨none, [], [⟨"reading", none⟩]⟩, ⟨none, [], [⟨"reading", none⟩]⟩]
  policy := .any

def Table.sameReading : Table :=
  ⟨.sameReading, Draft.valid_of_fault?_eq_none (by decide +kernel)⟩

theorem Engine.unanimous_sameReading :
    let supplied : Variables := (∅ : Variables).insert "reading" (.float (.zero true))
    Table.sameReading.policy = .any ∧
      (∀ rule ∈ Table.sameReading.rules, rule.outputs = [⟨"reading", none⟩]) ∧
      (Engine.simple Registry.standard.converter?).Unanimous .sameReading supplied
        [⟨"reading", none⟩] := by
  intro supplied
  have hsame : ∀ rule ∈ Table.sameReading.rules, rule.outputs = [⟨"reading", none⟩] := by
    decide
  exact ⟨rfl, hsame, unanimous_of_same _ Table.sameReading supplied _ rfl hsame⟩

/-- The two rules are found to differ if the variable is a NaN, and also if it is a
    list with a NaN in it. -/
theorem Engine.conflict_sameReading :
    Table.sameReading.policy = .any ∧
      (∀ rule ∈ Table.sameReading.rules, rule.outputs = [⟨"reading", none⟩]) ∧
      (Engine.simple Registry.standard.converter?).report .sameReading
          ((∅ : Variables).insert "reading" (.float (.nan false))) =
        .error (.conflictingOutputs "#1" "#2") ∧
      (Engine.simple Registry.standard.converter?).report .sameReading
          ((∅ : Variables).insert "reading" (.list [.null, .float (.nan false)])) =
        .error (.conflictingOutputs "#1" "#2") := by
  refine ⟨rfl, by decide, ?_, ?_⟩ <;> decide +kernel

end Decision
