import Decision.Proofs.Evaluation.Coercion
import Decision.Proofs.Evaluation.Contexts
import Decision.Proofs.Evaluation.Policies

/-!
# What a Report Says

How a report is to be read, whatever engine it comes from.

A report has three parts: the places of the rules that match, the places of the
rules that count, and a result for each of the latter. `Engine.Accounts` says
what each part means, and how they fit: a rule is listed as matching exactly if
all its cells hold, the rules that count are among those, and the results are
theirs in the same order.

The evaluation pairs cells with clauses, and outputs with clauses, by walking
along two lists until one of them ends. It never looks whether the other one has
ended too. So none of this would be true of any draft. A table is a draft whose
rules have a cell for every clause and whose clauses have names of their own,
and nothing is lost in the pairing or found under the wrong name.

An aggregator makes one value of all results, so what is said about the single
results is said of tables without one.

## Main definitions

* `InputEntry.Passes`: A value passes a cell.
* `RuleResult.BelongsTo`: A result is the result of the rule at some place.
* `Engine.Accounts`: What a report says about a table.

## Theorems

* `report_eq_ok_iff`: When an evaluation has a report.
* `grants_tests_iff`: A rule matches if every value passes its cell.
* `forall₂_column`: A column has one value from each result.
* `accounts_of_report`: Every report of a table is to be read in this way.
-/

namespace Decision

open Consultation

namespace Engine

variable (engine : Engine) (table : Table) (supplied : Variables)

/-! ## Success -/

/-- An evaluation has a report exactly if nobody refuses a question of its script
    and the script leads to that report. -/
theorem report_eq_ok_iff {report : Report} :
    engine.report table supplied = .ok report ↔
      (∀ call ∈ engine.script table supplied, call.refusedBy engine.reply = false) ∧
        engine.outcome table supplied = .ok report := by
  have hfollows := engine.follows_consult table supplied
  constructor
  · intro hreport
    exact follows_of_run_eq_ok hfollows hreport
  · rintro ⟨hquiet, houtcome⟩
    rw [Engine.report, hfollows.run_eq hquiet, houtcome]

/-- A report is made of the rules that match, those that count, and what becomes
    of their results. -/
theorem outcome_eq_ok_iff {report : Report} :
    engine.outcome table supplied = .ok report ↔
      ∃ selected, engine.selected table supplied = .ok selected ∧
        table.finish (selected.map (engine.ruleResult table.outputs)) = .ok report.result ∧
        report.matched = (engine.matched table supplied).map Row.index ∧
        report.selected = selected.map fun candidate => candidate.row.index := by
  constructor
  · intro houtcome
    rcases exists_of_bind_eq_ok houtcome with ⟨selected, hselected, hrest⟩
    rcases exists_of_bind_eq_ok hrest with ⟨result, hresult, hreport⟩
    rw [← Except.ok.inj hreport]
    exact ⟨selected, hselected, hresult, rfl, rfl⟩
  · rintro ⟨selected, hselected, hresult, hmatched, hplaces⟩
    rw [outcome, hselected]
    show (table.finish (selected.map (engine.ruleResult table.outputs)) >>= _) = _
    rw [hresult]
    show Except.ok (Report.mk _ _ _) = _
    rw [← hmatched, ← hplaces]

end Engine

/-! ## Rules that match -/

/-- A value passes an open cell, and every cell that is answered true about it. -/
def InputEntry.Passes (engine : Engine) (context : Context) (value : Value) : InputEntry → Prop
  | .any => True
  | .test cell => engine.evaluator.condition cell value context = .ok true

theorem InputEntry.passes_test_iff {engine : Engine} {context : Context} {value : Value}
    {cell : Expression} : (InputEntry.test cell).Passes engine context value ↔
      engine.evaluator.condition cell value context = .ok true := Iff.rfl

namespace Engine

variable {engine : Engine} {table : Table} {supplied : Variables}

theorem isGrant_condition_iff {cell : Expression} {value : Value} {context : Context} :
    Call.isGrant (.condition cell value context) (engine.reply (.condition cell value context)) =
      true ↔ InputEntry.Passes engine context value (.test cell) := by
  show ((engine.evaluator.condition cell value context).toOption == some true) = true ↔
    engine.evaluator.condition cell value context = .ok true
  cases engine.evaluator.condition cell value context with
  | ok holds => cases holds <;> decide
  | error reason => exact iff_of_false Bool.false_ne_true nofun

/-- The cells of a rule hold if every value passes its cell. The walk along the
    clauses and the cells reaches all of them because there are as many. -/
theorem grants_tests_iff {context : Context} {value : Clause .input → Value}
    {clauses : List (Clause .input)} {entries : List InputEntry}
    (hlength : entries.length = clauses.length) :
    engine.grants (InputEntry.tests context value clauses entries) = true ↔
      List.Forall₂ (fun clause entry => InputEntry.Passes engine context (value clause) entry)
        clauses entries := by
  induction clauses generalizing entries with
  | nil =>
      have hnil : entries = [] := List.length_eq_zero_iff.mp hlength
      rw [hnil]
      exact iff_of_true rfl .nil
  | cons clause clauses ih =>
      cases entries with
      | nil => exact absurd hlength (Nat.succ_ne_zero _).symm
      | cons entry entries =>
          have hrest := ih (Nat.succ.inj hlength)
          rw [List.forall₂_cons, ← hrest]
          cases entry with
          | any => exact (and_iff_right trivial).symm
          | test cell =>
              have htests : InputEntry.tests context value (clause :: clauses)
                  (.test cell :: entries) = .condition cell (value clause) context ::
                    InputEntry.tests context value clauses entries := rfl
              rw [htests, grants, List.all_cons, Bool.and_eq_true, isGrant_condition_iff]
              rfl

/-- The places of the rules that match rise. -/
theorem pairwise_index_matched :
    ((engine.matched table supplied).map Row.index).Pairwise (· < ·) := by
  have hplaces : (table.rows.map Row.index).Pairwise (· < ·) := by
    rw [Draft.rows, Row.map_index_listFrom]
    exact List.pairwise_lt_range'
  exact hplaces.sublist (List.filter_sublist.map Row.index)

/-- A rule is among those that match exactly if every value passes its cell. -/
theorem mem_index_matched_iff {index : Nat} :
    index ∈ (engine.matched table supplied).map Row.index ↔
      ∃ rule, table.rules[index]? = some rule ∧
        List.Forall₂ (fun clause entry => InputEntry.Passes engine
          (engine.context table.inputs supplied) (engine.bound supplied clause) entry)
          table.inputs rule.inputs := by
  -- Every rule of the table has a cell for every clause.
  have hlength : ∀ {place : Nat} {rule : Rule}, table.rules[place]? = some rule →
      rule.inputs.length = table.inputs.length :=
    fun hrule => table.valid.inputs_length _ (List.mem_of_getElem? hrule)
  simp only [matched, Draft.rows, List.mem_map, List.mem_filter, Row.mem_listFrom_iff]
  constructor
  · rintro ⟨row, ⟨hrule, hgrants⟩, rfl⟩
    exact ⟨row.rule, hrule, (grants_tests_iff (hlength hrule)).mp hgrants⟩
  · rintro ⟨rule, hrule, hpasses⟩
    have hgrants := (grants_tests_iff (hlength hrule)).mpr hpasses
    exact ⟨⟨index, rule⟩, ⟨hrule, hgrants⟩, rfl⟩

/-! ## Rules that count -/

section Selected

variable {selected : List Candidate} (h : engine.selected table supplied = .ok selected)

include h

/-- The rules that count are among those that match, and each counts once. -/
theorem index_subperm_matched :
    (selected.map fun candidate => candidate.row.index).Subperm
      ((engine.matched table supplied).map Row.index) := by
  rcases HitPolicy.verdict_subperm h with ⟨chosen, hperm, hsublist⟩
  have hindex : (engine.candidates table supplied).map (fun candidate => candidate.row.index) =
      (table.policy.considered (engine.matched table supplied)).map Row.index := by
    rw [candidates, List.map_map]
    rfl
  have hconsidered := hsublist.map fun candidate => candidate.row.index
  rw [hindex] at hconsidered
  exact ⟨_, hperm.map _, hconsidered.trans ((table.policy.considered_sublist _).map Row.index)⟩

theorem nodup_index_selected : (selected.map fun candidate => candidate.row.index).Nodup := by
  rcases index_subperm_matched h with ⟨places, hperm, hsublist⟩
  have hmatched := hsublist.nodup (pairwise_index_matched.imp Nat.ne_of_lt)
  exact hperm.nodup_iff.mp hmatched

/-- Where the policy lets all rules count that match, they count in its order. -/
theorem index_eq_matched (hpolicy : table.policy = .collect ∨ table.policy = .ruleOrder) :
    (selected.map fun candidate => candidate.row.index) =
      (engine.matched table supplied).map Row.index := by
  have hall : selected = (engine.matched table supplied).map
      (engine.candidate (engine.context table.inputs supplied)) := by
    rw [Engine.selected, candidates] at h
    rcases hpolicy with hpolicy | hpolicy <;> rw [hpolicy] at h <;> exact (Except.ok.inj h).symm
  rw [hall, List.map_map]
  rfl

theorem index_perm_matched (hpolicy : table.policy = .outputOrder) :
    (selected.map fun candidate => candidate.row.index).Perm
      ((engine.matched table supplied).map Row.index) := by
  have hranked : selected = Candidate.byRank table.outputs ((engine.matched table supplied).map
      (engine.candidate (engine.context table.inputs supplied))) := by
    rw [Engine.selected, candidates, hpolicy] at h
    exact (Except.ok.inj h).symm
  have hperm := (HitPolicy.byRank_perm table.outputs ((engine.matched table supplied).map
      (engine.candidate (engine.context table.inputs supplied)))).map
        fun candidate => candidate.row.index
  rw [← hranked, List.map_map] at hperm
  exact hperm

/-- Under a policy that lets no more than one rule through, no more than one rule
    counts. -/
theorem length_selected_le_one (hpolicy : table.policy.isMultiple = false) :
    selected.length ≤ 1 := by
  rw [Engine.selected] at h
  have hfew : ∀ {candidates : List Candidate}, (candidates.take 1).length ≤ 1 :=
    fun {candidates} => List.length_take_le 1 candidates
  cases hcase : table.policy with
  | unique =>
      -- There is a verdict only if one rule matches, and then it is that rule.
      rw [candidates, hcase] at h
      cases hmatched : engine.matched table supplied with
      | nil =>
          rw [hmatched] at h
          cases h
      | cons row others =>
          rw [hmatched] at h
          cases others with
          | nil =>
              rw [← Except.ok.inj h]
              exact Nat.le_refl 1
          | cons other others => cases h
  | first =>
      rw [candidates, hcase] at h
      rw [← Except.ok.inj h, List.length_map]
      exact List.length_take_le 1 _
  | priority =>
      rw [hcase] at h
      rw [← Except.ok.inj h]
      exact hfew
  | any =>
      rw [hcase] at h
      -- Rules that agree are represented by the first of them.
      cases hcandidates : engine.candidates table supplied with
      | nil =>
          rw [hcandidates] at h
          rw [← Except.ok.inj h]
          exact Nat.zero_le 1
      | cons head others =>
          rw [hcandidates] at h
          simp only [HitPolicy.verdict] at h
          split at h
          · cases h
          · rw [← Except.ok.inj h]
            exact Nat.le_refl 1
  | collect => rw [hcase] at hpolicy; exact absurd hpolicy.symm Bool.false_ne_true
  | ruleOrder => rw [hcase] at hpolicy; exact absurd hpolicy.symm Bool.false_ne_true
  | outputOrder => rw [hcase] at hpolicy; exact absurd hpolicy.symm Bool.false_ne_true

end Selected

end Engine

/-! ## Results -/

/-- A result is the result of the rule at some place of a table, with one entry
    for every output clause. -/
structure RuleResult.BelongsTo (table : Table) (index : Nat) (result : RuleResult) : Prop where
  index_eq : result.index = some index
  id_eq : table.rules[index]?.map Rule.id = some result.id
  names : result.entries.map Prod.fst = table.outputs.map Clause.name

/-- A value under a name is found if there is one, and none is found if there is
    no entry of that name. -/
theorem RuleResult.get?_cases (result : RuleResult) (name : String) :
    (∃ value, result.get? name = some value ∧ (name, value) ∈ result.entries) ∨
      (result.get? name = none ∧ name ∉ result.entries.map Prod.fst) := by
  cases hfind : result.entries.find? fun entry => entry.1 == name with
  | none =>
      refine Or.inr ⟨by rw [get?, hfind]; rfl, ?_⟩
      intro hname
      rcases List.mem_map.mp hname with ⟨entry, hentry, hfst⟩
      exact List.find?_eq_none.mp hfind entry hentry (beq_iff_eq.mpr hfst)
  | some entry =>
      have hfound : (entry.1 == name) = true :=
        List.find?_some (p := fun entry : String × Value => entry.1 == name) hfind
      have hfst : entry.1 = name := beq_iff_eq.mp hfound
      refine Or.inl ⟨entry.2, by rw [get?, hfind]; rfl, ?_⟩
      rw [← hfst]
      exact List.mem_of_find?_eq_some hfind

namespace Result

/-- A column of a name that every result has consists of one value from each, in
    the order of the results. -/
theorem forall₂_column {rules : List RuleResult} {name : String}
    (h : ∀ rule ∈ rules, name ∈ rule.entries.map Prod.fst) :
    List.Forall₂ (fun value rule => (name, value) ∈ rule.entries)
      ((⟨rules⟩ : Result).column name) rules := by
  unfold column
  induction rules with
  | nil => exact .nil
  | cons rule rules ih =>
      have hrest := ih fun other hother => h other (List.mem_cons_of_mem rule hother)
      rcases rule.get?_cases name with ⟨value, hvalue, hentry⟩ | ⟨_, hnone⟩
      · simp only [List.filterMap_cons, hvalue]
        exact .cons hentry hrest
      · exact absurd (h rule List.mem_cons_self) hnone

/-- A column of a name that no result has is empty. -/
theorem column_eq_nil {result : Result} {name : String}
    (h : ∀ rule ∈ result.rules, name ∉ rule.entries.map Prod.fst) :
    result.column name = [] := by
  rw [column, List.filterMap_eq_nil_iff]
  intro rule hrule
  rcases rule.get?_cases name with ⟨value, _, hentry⟩ | ⟨hnone, _⟩
  · exact absurd (List.mem_map.mpr ⟨_, hentry, rfl⟩) (h rule hrule)
  · exact hnone

end Result

/-! ## Reports -/

namespace Engine

variable (engine : Engine) (table : Table) (supplied : Variables)

/-- What a report says about a table. -/
structure Accounts (report : Report) : Prop where
  /-- Every input clause has the value that its variable is converted to. -/
  bound_eq : ∀ clause ∈ table.inputs,
    engine.convert clause (supplied[clause.name]?.getD .null) = .ok (engine.bound supplied clause)
  context_eq : (Context.ofInputs table.inputs supplied).run engine.reply =
    .ok (engine.context table.inputs supplied)
  matched_rising : report.matched.Pairwise (· < ·)
  /-- The rules that match are those all of whose cells are passed by the values
      of their clauses. -/
  mem_matched_iff : ∀ index, index ∈ report.matched ↔
    ∃ rule, table.rules[index]? = some rule ∧
      List.Forall₂ (fun clause entry => InputEntry.Passes engine
        (engine.context table.inputs supplied) (engine.bound supplied clause) entry)
        table.inputs rule.inputs
  selected_nodup : report.selected.Nodup
  selected_subset : report.selected ⊆ report.matched
  selected_eq : table.policy = .collect ∨ table.policy = .ruleOrder →
    report.selected = report.matched
  selected_perm : table.policy = .outputOrder → report.selected.Perm report.matched
  selected_single : table.policy.isMultiple = false → report.selected.length ≤ 1
  /-- The results are those of the rules that count, in the same order. -/
  results : table.aggregator = none →
    List.Forall₂ (RuleResult.BelongsTo table) report.selected report.result.rules
  column_of_clause : table.aggregator = none → ∀ clause ∈ table.outputs,
    List.Forall₂ (fun value rule => (clause.name, value) ∈ rule.entries)
      (report.result.column clause.name) report.result.rules
  column_of_other : table.aggregator = none → ∀ name ∉ table.outputs.map Clause.name,
    report.result.column name = []

variable {engine table supplied} {report : Report}

/-- Where nothing is refused every input clause has the value that it should. -/
theorem convert_of_quiet
    (hquiet : ∀ call ∈ engine.script table supplied, call.refusedBy engine.reply = false)
    {clause : Clause .input} (hclause : clause ∈ table.inputs) :
    engine.convert clause (supplied[clause.name]?.getD .null) =
      .ok (engine.bound supplied clause) := by
  refine (engine.follows_coerce clause _).run_eq fun call hcall => hquiet call ?_
  have hbind : call ∈ engine.bindings table.inputs supplied :=
    List.mem_flatMap.mpr ⟨clause, hclause, hcall⟩
  simp only [script, List.mem_append]
  exact Or.inl (Or.inl (Or.inl hbind))

/-- A rule that counts has a result that belongs to it. -/
theorem belongsTo_ruleResult {candidate : Candidate} {selected : List Candidate}
    (h : engine.selected table supplied = .ok selected) (hcandidate : candidate ∈ selected) :
    RuleResult.BelongsTo table candidate.row.index (engine.ruleResult table.outputs candidate) := by
  -- The rule stands at its place in the table, and its outputs are those of its cells.
  rcases List.mem_map.mp (HitPolicy.mem_of_mem_verdict h hcandidate) with ⟨row, hrow, rfl⟩
  have hmatched : row ∈ engine.matched table supplied := HitPolicy.mem_of_mem_considered hrow
  have hmem : row ∈ table.rows := (List.mem_filter.mp hmatched).1
  refine ⟨rfl, ?_, engine.map_fst_entries (engine.length_outputs_candidate hmem)⟩
  show table.rules[row.index]?.map Rule.id = some row.rule.id
  rw [Row.mem_listFrom_iff.mp hmem]
  rfl

/-- Without an aggregator the rules that count are reported one by one. -/
theorem forall₂_belongsTo (plain : table.aggregator = none) {selected : List Candidate}
    (h : engine.selected table supplied = .ok selected)
    (hresult : table.finish (selected.map (engine.ruleResult table.outputs)) = .ok report.result) :
    List.Forall₂ (RuleResult.BelongsTo table)
      (selected.map fun candidate => candidate.row.index) report.result.rules := by
  have hrules : report.result.rules = selected.map (engine.ruleResult table.outputs) := by
    rw [Table.finish_of_plain plain] at hresult
    rw [← Except.ok.inj hresult]
  rw [hrules, List.forall₂_map_left_iff, List.forall₂_map_right_iff, List.forall₂_same]
  exact fun candidate hcandidate => belongsTo_ruleResult h hcandidate

/-- Every report of a table says what a report is meant to say. -/
theorem accounts_of_report (h : engine.report table supplied = .ok report) :
    engine.Accounts table supplied report := by
  rcases (engine.report_eq_ok_iff table supplied).mp h with ⟨hquiet, houtcome⟩
  rcases (engine.outcome_eq_ok_iff table supplied).mp houtcome with
    ⟨selected, hselected, hresult, hmatched, hplaces⟩
  -- Unless a column is folded, every result has an entry for each output clause.
  have hnames : table.aggregator = none → ∀ rule ∈ report.result.rules,
      rule.entries.map Prod.fst = table.outputs.map Clause.name := by
    intro plain rule hrule
    have hbelongs := forall₂_belongsTo plain hselected hresult
    rcases List.forall₂_iff_get.mp hbelongs with ⟨hlength, hget⟩
    rcases List.get_of_mem hrule with ⟨⟨k, hk⟩, rfl⟩
    exact (hget k (by rw [hlength]; exact hk) hk).names
  exact {
    bound_eq := fun clause hclause => convert_of_quiet hquiet hclause
    context_eq := run_ofInputs_of_convert fun clause hclause =>
      ⟨_, convert_of_quiet hquiet hclause⟩
    matched_rising := by
      rw [hmatched]
      exact pairwise_index_matched
    mem_matched_iff := by
      intro index
      rw [hmatched]
      exact mem_index_matched_iff
    selected_nodup := by
      rw [hplaces]
      exact nodup_index_selected hselected
    selected_subset := by
      rw [hplaces, hmatched]
      exact (index_subperm_matched hselected).subset
    selected_eq := by
      intro hpolicy
      rw [hplaces, hmatched]
      exact index_eq_matched hselected hpolicy
    selected_perm := by
      intro hpolicy
      rw [hplaces, hmatched]
      exact index_perm_matched hselected hpolicy
    selected_single := by
      intro hpolicy
      rw [hplaces, List.length_map]
      exact length_selected_le_one hselected hpolicy
    results := by
      intro plain
      rw [hplaces]
      exact forall₂_belongsTo plain hselected hresult
    column_of_clause := by
      intro plain clause hclause
      refine Result.forall₂_column fun rule hrule => ?_
      rw [hnames plain rule hrule]
      exact List.mem_map.mpr ⟨clause, hclause, rfl⟩
    column_of_other := by
      intro plain name hname
      refine Result.column_eq_nil fun rule hrule => ?_
      rw [hnames plain rule hrule]
      exact hname
  }

end Engine

/-! ## An instance -/

/-- Three rules, the second of which is not for adults. -/
def Draft.threeGrades : Draft where
  id := "three grades"
  inputs := [{ name := "age", typeName := some "long" }]
  outputs := [{ name := "grade", typeName := some "string" }]
  rules := [⟨some "low", [.any], [⟨"1", none⟩]⟩,
    ⟨some "young", [.test ⟨"< 18", none⟩], [⟨"3", none⟩]⟩,
    ⟨none, [.test ⟨">= 18", none⟩], [⟨"2", none⟩]⟩]
  policy := .ruleOrder

def Table.threeGrades : Table :=
  ⟨.threeGrades, Draft.valid_of_fault?_eq_none (by decide +kernel)⟩

/-- The two rules that match an adult. -/
def Report.threeGrades : Report where
  result := ⟨[⟨some 0, some "low", [("grade", .string "1")]⟩,
    ⟨some 2, none, [("grade", .string "2")]⟩]⟩
  matched := [0, 2]
  selected := [0, 2]

theorem Engine.accounts_threeGrades :
    let supplied : Variables := (∅ : Variables).insert "age" (.string "42")
    standard.report .threeGrades supplied = .ok .threeGrades ∧
      standard.Accounts .threeGrades supplied .threeGrades := by
  intro supplied
  have hreport : standard.report .threeGrades supplied = .ok .threeGrades := by decide +kernel
  exact ⟨hreport, accounts_of_report hreport⟩

end Decision
