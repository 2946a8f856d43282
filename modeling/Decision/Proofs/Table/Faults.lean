import Decision.Table.Basic

/-!
# The First Fault

What `Draft.build` makes of a draft, said without the search that it makes.

A draft can be wrong in several places at once, and only one of them is
reported. Which one is not left to chance: there is an order, and the fault is
the first in it. The order has three parts. The clauses come first, because the
number of cells that a rule has to have is counted from them. Then come the
rules from the top of the table, and for each of them its input cells before its
output cells. The aggregator comes last.

`FirstFault` lists the ways in which a fault can be the first. Each constructor
says where the fault is and that everything before it is as it should be, so no
two of them apply to one draft. The search is compared with it piece by piece,
every piece of the search with the constructors it is responsible for.

## Main definitions

* `FirstRepeated`: A clause is the first whose name occurs earlier.
* `Draft.ClausesFit`: There is nothing wrong with the clauses.
* `Draft.Fits`: A rule has a cell for every clause.
* `Draft.FirstFault`: A fault is the first of a draft.

## Theorems

* `firstFault_of_fault?`, `fault?_of_firstFault`: The search finds the first fault.
* `firstFault_unique`: There is one first fault at most.
* `fault?_eq_none_iff`: The search finds none exactly if the parts fit.
* `build_outcome`: A draft becomes the table of its parts, or its first fault.
-/

namespace Decision

/-! ## Faults in order -/

/-- A clause is the first of a list whose name occurs earlier. -/
def FirstRepeated {role : Role} (clauses : List (Clause role)) (clause : Clause role) : Prop :=
  ∃ before after, clauses = before ++ clause :: after ∧
    (before.map Clause.name).Nodup ∧ clause.name ∈ before.map Clause.name

namespace Draft

/-- There is nothing wrong with the clauses of a draft. -/
structure ClausesFit (draft : Draft) : Prop where
  inputs_nodup : (draft.inputs.map Clause.name).Nodup
  outputs_nodup : (draft.outputs.map Clause.name).Nodup
  outputs_ne_nil : draft.outputs ≠ []

/-- A rule has a cell for every clause. -/
def Fits (draft : Draft) (rule : Rule) : Prop :=
  rule.inputs.length = draft.inputs.length ∧ rule.outputs.length = draft.outputs.length

/-- A fault is the first of a draft: it is there, and nothing that is looked at
    before it is wrong. -/
inductive FirstFault (draft : Draft) : TableError → Prop where
  | repeatedInput {clause : Clause .input} (h : FirstRepeated draft.inputs clause) :
      FirstFault draft (.duplicateClause .input clause.name)
  | repeatedOutput {clause : Clause .output}
      (hinputs : (draft.inputs.map Clause.name).Nodup) (h : FirstRepeated draft.outputs clause) :
      FirstFault draft (.duplicateClause .output clause.name)
  | withoutOutputs (hinputs : (draft.inputs.map Clause.name).Nodup) (h : draft.outputs = []) :
      FirstFault draft .noOutputs
  | inputCells {before after : List Rule} {rule : Rule} (hclauses : draft.ClausesFit)
      (hrules : draft.rules = before ++ rule :: after) (hbefore : ∀ earlier ∈ before,
        draft.Fits earlier) (h : rule.inputs.length ≠ draft.inputs.length) :
      FirstFault draft
        (.inputArity (rule.label before.length) draft.inputs.length rule.inputs.length)
  | outputCells {before after : List Rule} {rule : Rule} (hclauses : draft.ClausesFit)
      (hrules : draft.rules = before ++ rule :: after) (hbefore : ∀ earlier ∈ before,
        draft.Fits earlier) (hinputs : rule.inputs.length = draft.inputs.length)
      (h : rule.outputs.length ≠ draft.outputs.length) :
      FirstFault draft
        (.outputArity (rule.label before.length) draft.outputs.length rule.outputs.length)
  | policyOfAggregator {aggregator : Aggregator} (hclauses : draft.ClausesFit)
      (hrules : ∀ rule ∈ draft.rules, draft.Fits rule)
      (haggregator : draft.aggregator = some aggregator) (h : draft.policy ≠ .collect) :
      FirstFault draft (.aggregatorNeedsCollect aggregator draft.policy)
  | outputsOfAggregator {aggregator : Aggregator} (hclauses : draft.ClausesFit)
      (hrules : ∀ rule ∈ draft.rules, draft.Fits rule)
      (haggregator : draft.aggregator = some aggregator) (hpolicy : draft.policy = .collect)
      (h : draft.outputs.length ≠ 1) :
      FirstFault draft (.aggregatorNeedsSingleOutput aggregator draft.outputs.length)

/-! ## Names -/

/-- The search for a repeated name, with some names seen before it starts, ends at
    the first name that was seen by then. -/
theorem firstRepeated?_eq_some_iff {seen names : List String} {name : String} :
    firstRepeated? seen names = some name ↔
      ∃ before after, names = before ++ name :: after ∧ before.Nodup ∧
        (∀ earlier ∈ before, earlier ∉ seen) ∧ (name ∈ before ∨ name ∈ seen) := by
  induction names generalizing seen with
  | nil =>
      simp only [firstRepeated?, reduceCtorEq, List.nil_eq, List.append_eq_nil_iff, and_false,
        false_and, exists_const]
  | cons other names ih =>
      rw [firstRepeated?]
      by_cases hseen : other ∈ seen
      · rw [if_pos hseen]
        constructor
        · intro h
          cases h
          exact ⟨[], names, rfl, .nil, List.forall_mem_nil _, Or.inr hseen⟩
        · rintro ⟨before, after, hnames, _, hbefore, _⟩
          -- Had the search gone past the name, it would not have been seen.
          cases before with
          | nil => exact congrArg some (List.cons.inj hnames).1
          | cons first before =>
              rw [List.cons_append, List.cons.injEq] at hnames
              exact absurd (hnames.1 ▸ hseen) (hbefore first List.mem_cons_self)
      · rw [if_neg hseen, ih]
        constructor
        · rintro ⟨before, after, rfl, hnodup, hbefore, hname⟩
          exact ⟨other :: before, after, rfl, by grind, by grind, by grind⟩
        · rintro ⟨before, after, hnames, hnodup, hbefore, hname⟩
          cases before with
          | nil =>
              rcases hname with hname | hname
              · cases hname
              · exact absurd ((List.cons.inj hnames).1 ▸ hname) hseen
          | cons first before =>
              rw [List.cons_append, List.cons.injEq] at hnames
              rcases hnames with ⟨rfl, rfl⟩
              exact ⟨before, after, rfl, by grind, by grind, by grind⟩

theorem duplicate?_eq_some_iff {role : Role} {clauses : List (Clause role)} {fault : TableError} :
    duplicate? clauses = some fault ↔
      ∃ clause, FirstRepeated clauses clause ∧ .duplicateClause role clause.name = fault := by
  simp only [duplicate?, Option.map_eq_some_iff, firstRepeated?_eq_some_iff, List.not_mem_nil,
    or_false]
  constructor
  · rintro ⟨name, ⟨names, others, hnames, hnodup, -, hname⟩, hfault⟩
    rcases List.map_eq_append_iff.mp hnames with ⟨before, rest, rfl, rfl, hrest⟩
    rcases List.map_eq_cons_iff.mp hrest with ⟨clause, after, rfl, rfl, rfl⟩
    exact ⟨clause, ⟨before, after, rfl, hnodup, hname⟩, hfault⟩
  · rintro ⟨clause, ⟨before, after, rfl, hnodup, hname⟩, hfault⟩
    refine ⟨clause.name, ⟨_, after.map Clause.name, ?_, hnodup, fun _ _ => not_false, hname⟩,
      hfault⟩
    rw [List.map_append, List.map_cons]

/-! ## Rules -/

theorem misfit?_eq_some_iff {inputs outputs : Nat} {row : Row} {fault : TableError} :
    misfit? inputs outputs row = some fault ↔
      (row.rule.inputs.length ≠ inputs ∧
        .inputArity row.label inputs row.rule.inputs.length = fault) ∨
      (row.rule.inputs.length = inputs ∧ row.rule.outputs.length ≠ outputs ∧
        .outputArity row.label outputs row.rule.outputs.length = fault) := by
  unfold misfit?
  by_cases hinputs : row.rule.inputs.length = inputs
  · by_cases houtputs : row.rule.outputs.length = outputs
    · simp only [hinputs, houtputs, ne_eq, not_true_eq_false, if_false, reduceCtorEq, false_and,
        and_false, or_self]
    · simp only [hinputs, houtputs, ne_eq, not_true_eq_false, not_false_eq_true, if_false, if_true,
        Option.some.injEq, false_and, true_and, false_or]
  · simp only [hinputs, ne_eq, not_false_eq_true, if_true, Option.some.injEq, true_and, false_and,
      or_false]

/-- The search among the rules ends at the first that does not fit, and knows its
    place. -/
theorem firstMisfit?_eq_some_iff {inputs outputs index : Nat} {rules : List Rule}
    {fault : TableError} :
    firstMisfit? inputs outputs (Row.listFrom index rules) = some fault ↔
      ∃ before rule after, rules = before ++ rule :: after ∧
        (∀ earlier ∈ before, earlier.inputs.length = inputs ∧ earlier.outputs.length = outputs) ∧
        misfit? inputs outputs ⟨index + before.length, rule⟩ = some fault := by
  induction rules generalizing index with
  | nil =>
      simp only [firstMisfit?, Row.listFrom, List.findSome?_nil, reduceCtorEq, List.nil_eq,
        List.append_eq_nil_iff, and_false, false_and, exists_const, exists_false]
  | cons first rules ih =>
      -- One step of the search: the first rule, or else what is found behind it.
      have hnone := misfit?_eq_none_iff inputs outputs ⟨index, first⟩
      have hstep : firstMisfit? inputs outputs (Row.listFrom index (first :: rules)) =
          (misfit? inputs outputs ⟨index, first⟩).or
            (firstMisfit? inputs outputs (Row.listFrom (index + 1) rules)) := by
        rw [firstMisfit?, Row.listFrom, List.findSome?_cons]
        cases misfit? inputs outputs ⟨index, first⟩ <;> rfl
      rw [hstep, Option.or_eq_some_iff, ih]
      constructor
      · rintro (hfirst | ⟨hfits, before, rule, after, rfl, hbefore, hfault⟩)
        · exact ⟨[], first, rules, rfl, List.forall_mem_nil _, hfirst⟩
        · refine ⟨first :: before, rule, after, rfl, ?_, ?_⟩
          · exact List.forall_mem_cons.mpr ⟨hnone.mp hfits, hbefore⟩
          · rw [List.length_cons, Nat.add_comm before.length 1, ← Nat.add_assoc]
            exact hfault
      · rintro ⟨before, rule, after, hrules, hbefore, hfault⟩
        cases before with
        | nil =>
            rw [List.nil_append, List.cons.injEq] at hrules
            rw [hrules.1]
            exact Or.inl hfault
        | cons earlier before =>
            rw [List.cons_append, List.cons.injEq] at hrules
            rcases hrules with ⟨rfl, rfl⟩
            rw [List.forall_mem_cons] at hbefore
            refine Or.inr ⟨hnone.mpr hbefore.1, before, rule, after, rfl, hbefore.2, ?_⟩
            rw [List.length_cons, Nat.add_comm before.length 1, ← Nat.add_assoc] at hfault
            exact hfault

/-- The search among the rules of a draft, where the place of a rule is the number of
    rules before it. -/
theorem firstMisfit?_rows_eq_some_iff {draft : Draft} {fault : TableError} :
    firstMisfit? draft.inputs.length draft.outputs.length draft.rows = some fault ↔
      ∃ before rule after, draft.rules = before ++ rule :: after ∧
        (∀ earlier ∈ before, draft.Fits earlier) ∧
        misfit? draft.inputs.length draft.outputs.length ⟨before.length, rule⟩ = some fault := by
  rw [rows, firstMisfit?_eq_some_iff]
  simp only [Nat.zero_add, Fits]

theorem firstMisfit?_rows_eq_none_iff {draft : Draft} :
    firstMisfit? draft.inputs.length draft.outputs.length draft.rows = none ↔
      ∀ rule ∈ draft.rules, draft.Fits rule := by
  rw [firstMisfit?, List.findSome?_eq_none_iff]
  simp only [misfit?_eq_none_iff]
  constructor
  · intro h rule hrule
    rcases exists_row_of_mem hrule 0 with ⟨row, hrow, rfl⟩
    exact h row hrow
  · exact fun h row hrow => h row.rule (Row.rule_mem_of_mem_listFrom hrow)

/-! ## Outputs and aggregators -/

theorem withoutOutputs?_eq_none_iff {draft : Draft} :
    draft.withoutOutputs? = none ↔ draft.outputs ≠ [] := by
  simp only [withoutOutputs?, List.isEmpty_iff, ite_eq_right_iff, reduceCtorEq, imp_false, ne_eq]

theorem withoutOutputs?_eq_some_iff {draft : Draft} {fault : TableError} :
    draft.withoutOutputs? = some fault ↔ draft.outputs = [] ∧ .noOutputs = fault := by
  simp only [withoutOutputs?, List.isEmpty_iff, Option.ite_none_right_eq_some, Option.some.injEq]

theorem misplacedAggregator?_eq_some_iff {draft : Draft} {fault : TableError} :
    draft.misplacedAggregator? = some fault ↔
      ∃ aggregator, draft.aggregator = some aggregator ∧
        ((draft.policy ≠ .collect ∧ .aggregatorNeedsCollect aggregator draft.policy = fault) ∨
          (draft.policy = .collect ∧ draft.outputs.length ≠ 1 ∧
            .aggregatorNeedsSingleOutput aggregator draft.outputs.length = fault)) := by
  unfold misplacedAggregator?
  cases draft.aggregator with
  | none => simp only [reduceCtorEq, false_and, exists_false]
  | some aggregator =>
      simp only [Option.some.injEq, exists_eq_left']
      by_cases hpolicy : draft.policy = .collect
      · by_cases hsingle : draft.outputs.length = 1
        · simp only [hpolicy, hsingle, ne_eq, not_true_eq_false, if_false, reduceCtorEq, false_and,
            and_false, or_self]
        · simp only [hpolicy, hsingle, ne_eq, not_true_eq_false, not_false_eq_true, if_false,
            if_true, Option.some.injEq, false_and, true_and, false_or]
      · simp only [hpolicy, ne_eq, not_false_eq_true, if_true, Option.some.injEq, true_and,
          false_and, or_false]

/-! ## The whole search -/

/-- Where the clauses fit, the search goes on with the rules. -/
theorem fault?_of_clausesFit {draft : Draft} (h : draft.ClausesFit) :
    draft.fault? =
      (firstMisfit? draft.inputs.length draft.outputs.length draft.rows).or
        draft.misplacedAggregator? := by
  rw [fault?, (duplicate?_eq_none_iff _).mpr h.inputs_nodup,
    (duplicate?_eq_none_iff _).mpr h.outputs_nodup,
    withoutOutputs?_eq_none_iff.mpr h.outputs_ne_nil]
  simp only [Option.orElse_eq_orElse, Option.orElse_eq_or, Option.none_or]

/-- What the search finds is the first fault. -/
theorem firstFault_of_fault? {draft : Draft} {fault : TableError}
    (h : draft.fault? = some fault) : draft.FirstFault fault := by
  simp only [fault?, Option.orElse_eq_orElse, Option.orElse_eq_or, Option.or_eq_some_iff,
    duplicate?_eq_none_iff, withoutOutputs?_eq_none_iff, firstMisfit?_rows_eq_none_iff] at h
  rcases h with hin | ⟨hinputs, hout | ⟨houtputs, hnil | ⟨hsome, hmisfit | ⟨hrules, hfold⟩⟩⟩⟩
  · rcases duplicate?_eq_some_iff.mp hin with ⟨clause, hclause, rfl⟩
    exact .repeatedInput hclause
  · rcases duplicate?_eq_some_iff.mp hout with ⟨clause, hclause, rfl⟩
    exact .repeatedOutput hinputs hclause
  · rcases withoutOutputs?_eq_some_iff.mp hnil with ⟨hempty, rfl⟩
    exact .withoutOutputs hinputs hempty
  · -- A rule is complained about for its inputs, or else for its outputs.
    have hclauses : draft.ClausesFit := ⟨hinputs, houtputs, hsome⟩
    rcases firstMisfit?_rows_eq_some_iff.mp hmisfit with ⟨before, rule, after, hsplit, hbefore, h⟩
    rcases misfit?_eq_some_iff.mp h with ⟨hlength, rfl⟩ | ⟨hfits, hlength, rfl⟩
    · exact .inputCells hclauses hsplit hbefore hlength
    · exact .outputCells hclauses hsplit hbefore hfits hlength
  · have hclauses : draft.ClausesFit := ⟨hinputs, houtputs, hsome⟩
    rcases misplacedAggregator?_eq_some_iff.mp hfold with
      ⟨aggregator, haggregator, ⟨hpolicy, rfl⟩ | ⟨hpolicy, hlength, rfl⟩⟩
    · exact .policyOfAggregator hclauses hrules haggregator hpolicy
    · exact .outputsOfAggregator hclauses hrules haggregator hpolicy hlength

/-- The first fault is found, since the search stops at nothing before it. -/
theorem fault?_of_firstFault {draft : Draft} {fault : TableError}
    (h : draft.FirstFault fault) : draft.fault? = some fault := by
  cases h with
  | repeatedInput hclause =>
      rw [fault?, duplicate?_eq_some_iff.mpr ⟨_, hclause, rfl⟩]
      rfl
  | repeatedOutput hinputs hclause =>
      rw [fault?, (duplicate?_eq_none_iff _).mpr hinputs,
        duplicate?_eq_some_iff.mpr ⟨_, hclause, rfl⟩]
      rfl
  | withoutOutputs hinputs hnil =>
      have houtputs : duplicate? draft.outputs = none := by
        rw [hnil]
        rfl
      rw [fault?, (duplicate?_eq_none_iff _).mpr hinputs, houtputs,
        withoutOutputs?_eq_some_iff.mpr ⟨hnil, rfl⟩]
      rfl
  | inputCells hclauses hrules hbefore hlength =>
      rw [fault?_of_clausesFit hclauses, Option.or_eq_some_iff, firstMisfit?_rows_eq_some_iff]
      exact Or.inl ⟨_, _, _, hrules, hbefore, misfit?_eq_some_iff.mpr (Or.inl ⟨hlength, rfl⟩)⟩
  | outputCells hclauses hrules hbefore hinputs hlength =>
      rw [fault?_of_clausesFit hclauses, Option.or_eq_some_iff, firstMisfit?_rows_eq_some_iff]
      exact Or.inl ⟨_, _, _, hrules, hbefore,
        misfit?_eq_some_iff.mpr (Or.inr ⟨hinputs, hlength, rfl⟩)⟩
  | policyOfAggregator hclauses hrules haggregator hpolicy =>
      rw [fault?_of_clausesFit hclauses, firstMisfit?_rows_eq_none_iff.mpr hrules, Option.none_or,
        misplacedAggregator?_eq_some_iff]
      exact ⟨_, haggregator, Or.inl ⟨hpolicy, rfl⟩⟩
  | outputsOfAggregator hclauses hrules haggregator hpolicy hlength =>
      rw [fault?_of_clausesFit hclauses, firstMisfit?_rows_eq_none_iff.mpr hrules, Option.none_or,
        misplacedAggregator?_eq_some_iff]
      exact ⟨_, haggregator, Or.inr ⟨hpolicy, hlength, rfl⟩⟩

/-- A draft has one first fault at most. -/
theorem firstFault_unique {draft : Draft} {one another : TableError}
    (hone : draft.FirstFault one) (hanother : draft.FirstFault another) : one = another := by
  have h := fault?_of_firstFault hone
  rw [fault?_of_firstFault hanother, Option.some.injEq] at h
  exact h.symm

/-- The search finds nothing exactly if the parts fit. -/
theorem fault?_eq_none_iff {draft : Draft} : draft.fault? = none ↔ draft.Valid := by
  refine ⟨valid_of_fault?_eq_none, fun hvalid => ?_⟩
  have hclauses : draft.ClausesFit :=
    ⟨hvalid.inputs_nodup, hvalid.outputs_nodup, hvalid.outputs_ne_nil⟩
  have hrules : ∀ rule ∈ draft.rules, draft.Fits rule := fun rule hrule =>
    ⟨hvalid.inputs_length rule hrule, hvalid.outputs_length rule hrule⟩
  rw [fault?_of_clausesFit hclauses, firstMisfit?_rows_eq_none_iff.mpr hrules, Option.none_or]
  cases hfault : draft.misplacedAggregator? with
  | none => rfl
  | some fault =>
      rcases misplacedAggregator?_eq_some_iff.mp hfault with ⟨aggregator, haggregator, hfold⟩
      have hsome : draft.aggregator ≠ none := by
        rw [haggregator]
        exact nofun
      rcases hfold with ⟨hpolicy, -⟩ | ⟨-, hlength, -⟩
      · exact absurd (hvalid.collects hsome) hpolicy
      · exact absurd (hvalid.single_output hsome) hlength

/-! ## Building -/

theorem build_eq_ok_iff {draft : Draft} {table : Table} :
    draft.build = .ok table ↔ table.toDraft = draft := by
  unfold build
  constructor
  · intro h
    split at h
    · exact absurd h nofun
    · rw [← Except.ok.inj h]
  · rintro rfl
    have hnone := fault?_eq_none_iff.mpr table.valid
    split
    · next fault hfault =>
        rw [hnone] at hfault
        exact absurd hfault nofun
    · rfl

theorem build_eq_error_iff {draft : Draft} {fault : TableError} :
    draft.build = .error fault ↔ draft.fault? = some fault := by
  unfold build
  split
  · next found hfound => rw [hfound, Except.error.injEq, Option.some.injEq]
  · next hnone => exact iff_of_false nofun (by rw [hnone]; exact nofun)

/-- A draft becomes a table exactly if its parts fit, and then the table has the
    parts of the draft. Otherwise the error is the first fault. -/
theorem build_outcome (draft : Draft) :
    ((∃ table, draft.build = .ok table) ↔ draft.Valid) ∧
      (∀ table, draft.build = .ok table ↔ table.toDraft = draft) ∧
      ∀ fault, draft.build = .error fault ↔ draft.FirstFault fault := by
  refine ⟨⟨?_, ?_⟩, fun table => build_eq_ok_iff, fun fault => ?_⟩
  · rintro ⟨table, htable⟩
    rw [← build_eq_ok_iff.mp htable]
    exact table.valid
  · exact fun hvalid => ⟨⟨draft, hvalid⟩, build_eq_ok_iff.mpr rfl⟩
  · rw [build_eq_error_iff]
    exact ⟨firstFault_of_fault?, fault?_of_firstFault⟩

end Draft

end Decision
