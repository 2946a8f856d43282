import Decision.Proofs.Evaluation.Calls
import Mathlib.Data.List.Perm.Subperm

/-!
# How the Hit Policies Compare

One table under seven policies.

Collecting is the policy that looks at everything: it evaluates the outputs of
every rule that matches and converts all of them. Every other policy asks a part
of the same questions. So where collecting succeeds nobody refuses anything to
any of the others, and each of them has the outcome of its script. What is left
to compare are decisions, and those are plain functions of the rules that match
and their outputs.

The comparison is made without an aggregator, which fits no other policy.

The raw outputs of a rule, by which the policy ANY compares rules, do not appear
in a report. They are `Engine.rawOutputs`, what the evaluator produces for the
output cells of the rule before anything is converted.

## Main definitions

* `Table.withPolicy`: A table under another policy.
* `Report.first`: A report with its first rule result only.
* `Engine.rawOutputs`: The outputs of a rule before conversion.
* `Engine.PoliciesAgree`: What the seven policies have to do with each other.

## Theorems

* `verdict_subperm`: A policy chooses among the rules it has looked at.
* `report_withPolicy`: Where collecting succeeds, no policy is refused anything.
* `policiesAgree_of_collect`: Where collecting succeeds, the policies agree.
-/

namespace Decision

open Consultation

/-! ## Other policies -/

/-- The table with its policy replaced. Without an aggregator every policy fits. -/
def Table.withPolicy (table : Table) (plain : table.aggregator = none) (policy : HitPolicy) :
    Table where
  toDraft := { table.toDraft with policy := policy }
  valid := {
    inputs_nodup := table.valid.inputs_nodup
    outputs_nodup := table.valid.outputs_nodup
    outputs_ne_nil := table.valid.outputs_ne_nil
    inputs_length := table.valid.inputs_length
    outputs_length := table.valid.outputs_length
    collects := fun h => absurd plain h
    single_output := fun h => absurd plain h
  }

/-- The report with its first rule result only. The rules that match are the
    same. -/
def Report.first (report : Report) : Report where
  result := ⟨report.result.rules.take 1⟩
  matched := report.matched
  selected := report.selected.take 1

namespace HitPolicy

theorem considered_sublist (policy : HitPolicy) (matched : List Row) :
    (policy.considered matched).Sublist matched := by
  unfold considered
  cases policy with
  | unique =>
      match matched with
      | [] => exact List.Sublist.refl _
      | [only] => exact List.Sublist.refl _
      | one :: another :: others => exact List.nil_sublist _
  | first => exact List.take_sublist 1 matched
  | _ => exact List.Sublist.refl _

theorem mem_of_mem_considered {policy : HitPolicy} {matched : List Row} {row : Row}
    (h : row ∈ policy.considered matched) : row ∈ matched :=
  (policy.considered_sublist matched).mem h

theorem byRank_perm (clauses : List (Clause .output)) (candidates : List Candidate) :
    (Candidate.byRank clauses candidates).Perm candidates := List.mergeSort_perm candidates _

/-- A policy chooses among the rules it has looked at, and none of them twice. -/
theorem verdict_subperm {policy : HitPolicy} {clauses : List (Clause .output)}
    {matched : List Row} {candidates selected : List Candidate}
    (h : policy.verdict clauses matched candidates = .ok selected) :
    selected.Subperm candidates := by
  have hranked := (byRank_perm clauses candidates).subperm
  unfold verdict at h
  cases policy with
  | unique =>
      match matched, h with
      | [_], h => rw [Except.ok.inj h]
  | first => rw [Except.ok.inj h]
  | collect => rw [Except.ok.inj h]
  | ruleOrder => rw [Except.ok.inj h]
  | priority =>
      rw [← Except.ok.inj h]
      exact (List.take_sublist 1 _).subperm.trans hranked
  | outputOrder =>
      rw [← Except.ok.inj h]
      exact hranked
  | any =>
      match candidates, h with
      | [], h => rw [Except.ok.inj h]
      | head :: others, h =>
          simp only at h
          split at h
          · exact absurd h (by simp only [reduceCtorEq, not_false_eq_true])
          · rw [← Except.ok.inj h]
            exact (List.singleton_sublist.mpr List.mem_cons_self).subperm

theorem mem_of_mem_verdict {policy : HitPolicy} {clauses : List (Clause .output)}
    {matched : List Row} {candidates selected : List Candidate}
    (h : policy.verdict clauses matched candidates = .ok selected) {candidate : Candidate}
    (hmem : candidate ∈ selected) : candidate ∈ candidates := (verdict_subperm h).subset hmem

end HitPolicy

namespace Engine

variable (engine : Engine) (table : Table) (plain : table.aggregator = none)
  (supplied : Variables)

/-- The outputs of a rule as its cells produce them, before any conversion. -/
def rawOutputs (row : Row) : List Value :=
  (engine.candidate (engine.context table.inputs supplied) row).outputs

/-- The report that some rules give rise to if they are the ones that count. -/
def reportOf (selected : List Candidate) : Report where
  result := ⟨selected.map (engine.ruleResult table.outputs)⟩
  matched := (engine.matched table supplied).map Row.index
  selected := selected.map fun candidate => candidate.row.index

/-- All rules that match, with their outputs. -/
def allCandidates : List Candidate :=
  (engine.matched table supplied).map (engine.candidate (engine.context table.inputs supplied))

/-! ## Success carries over -/

include plain in
/-- Without an aggregator the rules that count are all that is left to know. -/
theorem outcome_of_plain :
    engine.outcome table supplied =
      (engine.selected table supplied).map (engine.reportOf table supplied) := by
  simp only [outcome, Table.finish_of_plain plain]
  cases engine.selected table supplied with
  | ok selected => rfl
  | error e => rfl

theorem outcome_withPolicy (policy : HitPolicy) :
    engine.outcome (table.withPolicy plain policy) supplied =
      (engine.selected (table.withPolicy plain policy) supplied).map
        (engine.reportOf table supplied) :=
  engine.outcome_of_plain (table.withPolicy plain policy) plain supplied

/-- No policy asks anything that collecting does not ask. -/
theorem mem_script_collect {policy : HitPolicy} {call : Call}
    (h : call ∈ engine.script (table.withPolicy plain policy) supplied) :
    call ∈ engine.script (table.withPolicy plain .collect) supplied := by
  have hconsidered : ∀ row ∈ policy.considered (engine.matched table supplied),
      row ∈ engine.matched table supplied := fun row hrow => HitPolicy.mem_of_mem_considered hrow
  simp only [script, List.mem_append] at h ⊢
  rcases h with ((hbind | htest) | houtput) | hconvert
  · exact Or.inl (Or.inl (Or.inl hbind))
  · exact Or.inl (Or.inl (Or.inr htest))
  · refine Or.inl (Or.inr ?_)
    rcases List.mem_flatMap.mp houtput with ⟨row, hrow, hcall⟩
    exact List.mem_flatMap.mpr ⟨row, hconsidered row hrow, hcall⟩
  · refine Or.inr ?_
    unfold resultConversions at hconvert ⊢
    cases hselected : engine.selected (table.withPolicy plain policy) supplied with
    | error e =>
        rw [hselected] at hconvert
        exact absurd hconvert List.not_mem_nil
    | ok selected =>
        rw [hselected] at hconvert
        rcases List.mem_flatMap.mp hconvert with ⟨candidate, hcandidate, hcall⟩
        -- A rule that counts is one of those that match.
        rcases List.mem_map.mp (HitPolicy.mem_of_mem_verdict hselected hcandidate) with
          ⟨row, hrow, rfl⟩
        exact List.mem_flatMap.mpr
          ⟨_, List.mem_map.mpr ⟨row, hconsidered row hrow, rfl⟩, hcall⟩

section Collected

variable {engine table plain supplied} {collected : Report}

/-- Where collecting succeeds, no policy is refused anything, and its decision is
    all that matters. -/
theorem report_withPolicy
    (h : engine.report (table.withPolicy plain .collect) supplied = .ok collected)
    (policy : HitPolicy) :
    engine.report (table.withPolicy plain policy) supplied =
      (engine.selected (table.withPolicy plain policy) supplied).map
        (engine.reportOf table supplied) := by
  rcases follows_of_run_eq_ok (engine.follows_consult (table.withPolicy plain .collect) supplied) h
    with ⟨hquiet, _⟩
  rw [← engine.outcome_withPolicy table plain supplied policy]
  exact (engine.follows_consult (table.withPolicy plain policy) supplied).run_eq fun call hcall =>
    hquiet call (engine.mem_script_collect table plain supplied hcall)

/-- Collecting reports all rules that match. -/
theorem eq_reportOf_of_collect
    (h : engine.report (table.withPolicy plain .collect) supplied = .ok collected) :
    collected = engine.reportOf table supplied (engine.allCandidates table supplied) := by
  have hreport := report_withPolicy h .collect
  rw [h] at hreport
  exact Except.ok.inj hreport

/-- What the evaluator produces for the output cells of a matching rule are its
    raw outputs. -/
theorem rawOutputs_of_collect
    (h : engine.report (table.withPolicy plain .collect) supplied = .ok collected) {row : Row}
    (hrow : row ∈ engine.matched table supplied) :
    (row.rule.outputs.map fun cell =>
        engine.evaluator.output cell (engine.context table.inputs supplied)) =
      (engine.rawOutputs table supplied row).map .ok := by
  rcases follows_of_run_eq_ok (engine.follows_consult (table.withPolicy plain .collect) supplied) h
    with ⟨hquiet, _⟩
  simp only [rawOutputs, candidate, List.map_map]
  exact List.map_congr_left fun cell hcell => output_of_quiet hquiet hrow hcell

/-! ## The decisions -/

theorem reportOf_take_one (selected : List Candidate) :
    engine.reportOf table supplied (selected.take 1) =
      (engine.reportOf table supplied selected).first := by
  simp only [reportOf, Report.first, List.map_take]

/-- A policy under which the first of the matching rules counts. -/
theorem report_eq_first
    (h : engine.report (table.withPolicy plain .collect) supplied = .ok collected)
    {policy : HitPolicy}
    (hselected : engine.selected (table.withPolicy plain policy) supplied =
      .ok ((engine.allCandidates table supplied).take 1)) :
    engine.report (table.withPolicy plain policy) supplied = .ok collected.first := by
  rw [report_withPolicy h policy, hselected, eq_reportOf_of_collect h, ← reportOf_take_one]
  rfl

theorem report_first
    (h : engine.report (table.withPolicy plain .collect) supplied = .ok collected) :
    engine.report (table.withPolicy plain .first) supplied = .ok collected.first := by
  refine report_eq_first h ?_
  rw [allCandidates, ← List.map_take]
  rfl

theorem report_unique
    (h : engine.report (table.withPolicy plain .collect) supplied = .ok collected) :
    engine.report (table.withPolicy plain .unique) supplied =
      match engine.matched table supplied with
      | [] => .error .noMatch
      | [_] => .ok collected
      | many => .error (.multipleMatches (many.map Row.label)) := by
  have hmatched : engine.matched (table.withPolicy plain .unique) supplied =
      engine.matched table supplied := rfl
  have hcollected := eq_reportOf_of_collect h
  rw [report_withPolicy h .unique, selected, candidates, hmatched]
  rw [allCandidates] at hcollected
  match hrows : engine.matched table supplied with
  | [] => rfl
  | [row] =>
      rw [hrows] at hcollected
      rw [hcollected]
      rfl
  | first :: second :: others => rfl

/-- Under ANY the later rules are compared with the first by their raw outputs. -/
theorem report_any
    (h : engine.report (table.withPolicy plain .collect) supplied = .ok collected) :
    engine.report (table.withPolicy plain .any) supplied =
      match engine.matched table supplied with
      | [] => .ok collected.first
      | head :: others =>
          match others.find? fun other =>
              engine.rawOutputs table supplied other != engine.rawOutputs table supplied head with
          | some other => .error (.conflictingOutputs head.label other.label)
          | none => .ok collected.first := by
  have hselected : engine.selected (table.withPolicy plain .any) supplied =
      HitPolicy.any.verdict table.outputs (engine.matched table supplied)
        (engine.allCandidates table supplied) := rfl
  have hall : engine.allCandidates table supplied = (engine.matched table supplied).map
      (engine.candidate (engine.context table.inputs supplied)) := rfl
  match hrows : engine.matched table supplied with
  | [] =>
      refine report_eq_first h ?_
      rw [hselected, hall, hrows]
      rfl
  | head :: others =>
      rw [hrows, List.map_cons] at hall
      simp only [hall, HitPolicy.verdict, List.find?_map] at hselected
      -- The same rule is found by its candidate and by itself.
      have hfind : (others.find? fun other =>
          engine.rawOutputs table supplied other != engine.rawOutputs table supplied head) =
            others.find? ((fun other => other.outputs !=
              (engine.candidate (engine.context table.inputs supplied) head).outputs) ∘
                engine.candidate (engine.context table.inputs supplied)) := rfl
      rw [← hfind] at hselected
      simp only
      cases hother : others.find? fun other =>
          engine.rawOutputs table supplied other != engine.rawOutputs table supplied head with
      | some other =>
          rw [hother] at hselected
          rw [report_withPolicy h .any, hselected]
          rfl
      | none =>
          rw [hother] at hselected
          refine report_eq_first h ?_
          rw [hselected, hall]
          rfl

theorem report_outputOrder
    (h : engine.report (table.withPolicy plain .collect) supplied = .ok collected) :
    ∃ ordered, engine.report (table.withPolicy plain .outputOrder) supplied = .ok ordered ∧
      ordered.result.rules.Perm collected.result.rules ∧
      engine.report (table.withPolicy plain .priority) supplied = .ok ordered.first := by
  have hperm := HitPolicy.byRank_perm table.outputs (engine.allCandidates table supplied)
  refine ⟨engine.reportOf table supplied
    (Candidate.byRank table.outputs (engine.allCandidates table supplied)), ?_, ?_, ?_⟩
  · rw [report_withPolicy h .outputOrder]
    rfl
  · rw [eq_reportOf_of_collect h]
    exact hperm.map _
  · rw [report_withPolicy h .priority, ← reportOf_take_one]
    rfl

theorem matched_of_report
    (h : engine.report (table.withPolicy plain .collect) supplied = .ok collected)
    {policy : HitPolicy} {report : Report}
    (hreport : engine.report (table.withPolicy plain policy) supplied = .ok report) :
    report.matched = collected.matched := by
  rw [report_withPolicy h policy] at hreport
  rw [eq_reportOf_of_collect h]
  cases hselected : engine.selected (table.withPolicy plain policy) supplied with
  | ok selected =>
      rw [hselected] at hreport
      rw [← Except.ok.inj hreport]
      rfl
  | error e =>
      rw [hselected] at hreport
      exact absurd hreport (by simp only [Except.map, reduceCtorEq, not_false_eq_true])

end Collected

/-! ## Agreement -/

/-- How the seven policies compare on one table, where `rows` are the rules that
    match and `collected` is the report of collecting them. -/
structure PoliciesAgree (rows : List Row) (collected : Report) : Prop where
  /-- The rules that match are rules of the table in its order. -/
  rows_sublist : rows.Sublist table.rows
  rows_index : rows.map Row.index = collected.matched
  /-- Their cells produce their raw outputs. -/
  rawOutputs_eq : ∀ row ∈ rows,
    (row.rule.outputs.map fun cell =>
        engine.evaluator.output cell (engine.context table.inputs supplied)) =
      (engine.rawOutputs table supplied row).map .ok
  ruleOrder : engine.report (table.withPolicy plain .ruleOrder) supplied = .ok collected
  first : engine.report (table.withPolicy plain .first) supplied = .ok collected.first
  unique_of_none : rows = [] →
    engine.report (table.withPolicy plain .unique) supplied = .error .noMatch
  unique_of_one : rows.length = 1 →
    engine.report (table.withPolicy plain .unique) supplied = .ok collected
  unique_of_many : 1 < rows.length →
    engine.report (table.withPolicy plain .unique) supplied =
      .error (.multipleMatches (rows.map Row.label))
  /-- The first rule that differs from the first of all is reported. -/
  any_of_conflict : ∀ head others other, rows = head :: others →
    (others.find? fun row =>
      engine.rawOutputs table supplied row != engine.rawOutputs table supplied head) =
        some other →
    engine.report (table.withPolicy plain .any) supplied =
      .error (.conflictingOutputs head.label other.label)
  any_of_agreement : (∀ head others, rows = head :: others → ∀ row ∈ others,
      (engine.rawOutputs table supplied row == engine.rawOutputs table supplied head) = true) →
    engine.report (table.withPolicy plain .any) supplied = .ok collected.first
  /-- Sorting rearranges the results, and the first of them has priority. -/
  outputOrder : ∃ ordered, engine.report (table.withPolicy plain .outputOrder) supplied =
      .ok ordered ∧
    ordered.result.rules.Perm collected.result.rules ∧
    engine.report (table.withPolicy plain .priority) supplied = .ok ordered.first
  /-- The rules that match do not depend on the policy. -/
  matched_eq : ∀ policy report,
    engine.report (table.withPolicy plain policy) supplied = .ok report →
    report.matched = collected.matched

/-- Where collecting succeeds, all other policies follow from its report and the
    raw outputs of the rules that match. -/
theorem policiesAgree_of_collect {collected : Report}
    (h : engine.report (table.withPolicy plain .collect) supplied = .ok collected) :
    engine.PoliciesAgree table plain supplied (engine.matched table supplied) collected where
  rows_sublist := List.filter_sublist
  rows_index := by
    rw [eq_reportOf_of_collect h]
    rfl
  rawOutputs_eq := fun row hrow => rawOutputs_of_collect h hrow
  ruleOrder := by
    rw [report_withPolicy h .ruleOrder, eq_reportOf_of_collect h]
    rfl
  first := report_first h
  unique_of_none := by
    intro hrows
    rw [report_unique h, hrows]
  unique_of_one := by
    intro hrows
    rcases List.length_eq_one_iff.mp hrows with ⟨row, hrow⟩
    rw [report_unique h, hrow]
  unique_of_many := by
    intro hrows
    rw [report_unique h]
    match engine.matched table supplied, hrows with
    | first :: second :: others, _ => rfl
  any_of_conflict := by
    intro head others other hrows hother
    rw [report_any h, hrows]
    simp only [hother]
  any_of_agreement := by
    intro hagree
    rw [report_any h]
    match hrows : engine.matched table supplied with
    | [] => rfl
    | head :: others =>
        have hnone : (others.find? fun row => engine.rawOutputs table supplied row !=
            engine.rawOutputs table supplied head) = none := by
          refine List.find?_eq_none.mpr fun row hrow => ?_
          rw [bne, hagree head others hrows row hrow]
          exact Bool.false_ne_true
        simp only [hnone]
  outputOrder := report_outputOrder h
  matched_eq := fun _ _ hreport => matched_of_report h hreport

end Engine

/-! ## An instance -/

/-- Two rules that always match, the second of which ranks higher. -/
def Draft.twoRanks : Draft where
  id := "two ranks"
  outputs := [{ name := "grade", typeName := some "long", values := [.int 2, .int 1] }]
  rules := [⟨some "low", [], [⟨"1", none⟩]⟩, ⟨none, [], [⟨"2", none⟩]⟩]

def Table.twoRanks : Table := ⟨.twoRanks, Draft.valid_of_fault?_eq_none (by decide +kernel)⟩

/-- What collecting the two rules reports. -/
def Report.twoRanks : Report where
  result := ⟨[⟨some 0, some "low", [("grade", .int 1)]⟩, ⟨some 1, none, [("grade", .int 2)]⟩]⟩
  matched := [0, 1]
  selected := [0, 1]

theorem Engine.policiesAgree_twoRanks :
    standard.report (Table.twoRanks.withPolicy rfl .collect) ∅ = .ok .twoRanks ∧
      standard.PoliciesAgree .twoRanks rfl ∅ (standard.matched .twoRanks ∅) .twoRanks := by
  have h : standard.report (Table.twoRanks.withPolicy rfl .collect) ∅ = .ok .twoRanks := by
    decide +kernel
  exact ⟨h, policiesAgree_of_collect standard .twoRanks rfl ∅ h⟩

end Decision
