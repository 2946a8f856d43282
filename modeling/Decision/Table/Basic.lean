import Decision.Table.Clause
import Decision.Table.Policy
import Decision.Table.Rule

/-!
# Decision Tables

A table that makes sense, and what is wrong with one that does not.

A draft is anything that has the parts of a table. A table is a draft together
with the proof that the parts fit: clause names are not repeated, there is an
output, every rule has a cell for every clause, and an aggregator is used only
where it has a single column of collected values to fold. The only way from one
to the other is `Draft.build`, so a table read from a document is as sound as
one put together by hand.

`Draft.fault?` looks for what is wrong in a fixed order and reports the first
thing it finds. `valid_of_fault?_eq_none` turns its silence into the proof.

## Main definitions

* `Draft`: The parts of a table.
* `Draft.Valid`: That the parts fit.
* `TableError`: What can be wrong.
* `Draft.fault?`: The first thing that is wrong.
* `Table`: A draft whose parts fit.
* `Draft.build`: The table of a draft.

## Theorems

* `valid_of_fault?_eq_none`: Where nothing is found wrong, the parts fit.
-/

namespace Decision

/-- The parts of a decision table. -/
structure Draft where
  id : String
  name : Option String := none
  inputs : List (Clause .input) := []
  outputs : List (Clause .output)
  rules : List Rule := []
  policy : HitPolicy := .unique
  aggregator : Option Aggregator := none
deriving DecidableEq

/-- What can be wrong with a draft. -/
inductive TableError where
  /-- Two clauses of one role have one name. -/
  | duplicateClause (role : Role) (name : String)
  | noOutputs
  /-- A rule has too few or too many input cells. -/
  | inputArity (rule : String) (expected found : Nat)
  /-- A rule has too few or too many output cells. -/
  | outputArity (rule : String) (expected found : Nat)
  /-- The policy does not collect. -/
  | aggregatorNeedsCollect (aggregator : Aggregator) (policy : HitPolicy)
  /-- There is not one output clause only. -/
  | aggregatorNeedsSingleOutput (aggregator : Aggregator) (outputs : Nat)
deriving DecidableEq, Repr

/-- The wording of the fault. -/
def TableError.message : TableError → String
  | .duplicateClause role name => s!"duplicate {role.text} clause name '{name}'"
  | .noOutputs => "decision table has no output clauses; at least one is required"
  | .inputArity rule expected found =>
      s!"rule {rule} has {found} input entries but the table has {expected} input clauses"
  | .outputArity rule expected found =>
      s!"rule {rule} has {found} output entries but the table has {expected} output clauses"
  | .aggregatorNeedsCollect aggregator policy =>
      s!"aggregator {aggregator.text} requires hit policy COLLECT, found {policy.text}"
  | .aggregatorNeedsSingleOutput aggregator outputs =>
      s!"aggregator {aggregator.text} requires exactly one output clause, found {outputs}"

namespace Draft

/-- That the parts of a draft fit. -/
structure Valid (draft : Draft) : Prop where
  inputs_nodup : (draft.inputs.map Clause.name).Nodup
  outputs_nodup : (draft.outputs.map Clause.name).Nodup
  outputs_ne_nil : draft.outputs ≠ []
  inputs_length : ∀ rule ∈ draft.rules, rule.inputs.length = draft.inputs.length
  outputs_length : ∀ rule ∈ draft.rules, rule.outputs.length = draft.outputs.length
  collects : draft.aggregator ≠ none → draft.policy = .collect
  single_output : draft.aggregator ≠ none → draft.outputs.length = 1

/-! ## Finding a fault -/

/-- The first name that occurs earlier in the list or among the names seen. -/
def firstRepeated? (seen : List String) : List String → Option String
  | [] => none
  | name :: names =>
      if name ∈ seen then some name else firstRepeated? (name :: seen) names

/-- Complains about the first clause whose name occurs earlier. -/
def duplicate? {role : Role} (clauses : List (Clause role)) : Option TableError :=
  (firstRepeated? [] (clauses.map Clause.name)).map (.duplicateClause role)

/-- Complains about a row that does not have the given numbers of cells. -/
def misfit? (inputs outputs : Nat) (row : Row) : Option TableError :=
  if row.rule.inputs.length ≠ inputs then
    some (.inputArity row.label inputs row.rule.inputs.length)
  else if row.rule.outputs.length ≠ outputs then
    some (.outputArity row.label outputs row.rule.outputs.length)
  else none

/-- Complains about the first row that does not have a cell for every clause. -/
def firstMisfit? (inputs outputs : Nat) (rows : List Row) : Option TableError :=
  rows.findSome? (misfit? inputs outputs)

/-- Complains about an aggregator where there is not one column of collected
    values. -/
def misplacedAggregator? (draft : Draft) : Option TableError :=
  match draft.aggregator with
  | none => none
  | some aggregator =>
      if draft.policy ≠ .collect then some (.aggregatorNeedsCollect aggregator draft.policy)
      else if draft.outputs.length ≠ 1 then
        some (.aggregatorNeedsSingleOutput aggregator draft.outputs.length)
      else none

/-- Complains about a draft that produces nothing. -/
def withoutOutputs? (draft : Draft) : Option TableError :=
  if draft.outputs.isEmpty then some .noOutputs else none

/-- The rules of a draft with their places. -/
def rows (draft : Draft) : List Row := Row.listFrom 0 draft.rules

/-- The first thing that is wrong with a draft. -/
def fault? (draft : Draft) : Option TableError :=
  duplicate? draft.inputs
    <|> duplicate? draft.outputs
    <|> draft.withoutOutputs?
    <|> firstMisfit? draft.inputs.length draft.outputs.length draft.rows
    <|> draft.misplacedAggregator?

/-! ## Nothing wrong -/

theorem firstRepeated?_eq_none_iff (seen names : List String) :
    firstRepeated? seen names = none ↔ names.Nodup ∧ ∀ name ∈ names, name ∉ seen := by
  induction names generalizing seen with
  | nil => exact iff_of_true rfl ⟨List.nodup_nil, List.forall_mem_nil _⟩
  | cons name names ih =>
      simp only [firstRepeated?, List.nodup_cons, List.mem_cons]
      split
      · next h => exact iff_of_false nofun fun hnew => hnew.2 name (Or.inl rfl) h
      · next h =>
          rw [ih]
          grind

theorem duplicate?_eq_none_iff {role : Role} (clauses : List (Clause role)) :
    duplicate? clauses = none ↔ (clauses.map Clause.name).Nodup := by
  rw [duplicate?, Option.map_eq_none_iff, firstRepeated?_eq_none_iff]
  exact and_iff_left fun _ _ => List.not_mem_nil

theorem misfit?_eq_none_iff (inputs outputs : Nat) (row : Row) :
    misfit? inputs outputs row = none ↔
      row.rule.inputs.length = inputs ∧ row.rule.outputs.length = outputs := by
  unfold misfit?
  split
  · next hinputs => exact iff_of_false nofun fun hfits => hinputs hfits.1
  · next hinputs =>
      split
      · next houtputs => exact iff_of_false nofun fun hfits => houtputs hfits.2
      · next houtputs =>
          exact iff_of_true rfl ⟨Decidable.not_not.mp hinputs, Decidable.not_not.mp houtputs⟩

theorem exists_row_of_mem {rule : Rule} {rules : List Rule} (h : rule ∈ rules) (index : Nat) :
    ∃ row ∈ Row.listFrom index rules, row.rule = rule := by
  induction rules generalizing index with
  | nil => cases h
  | cons other rules ih =>
      rcases List.mem_cons.mp h with rfl | h
      · exact ⟨⟨index, rule⟩, List.mem_cons_self, rfl⟩
      · rcases ih h (index + 1) with ⟨row, hrow, heq⟩
        exact ⟨row, List.mem_cons_of_mem _ hrow, heq⟩

/-- Where nothing is found wrong, the parts fit. -/
theorem valid_of_fault?_eq_none {draft : Draft} (h : draft.fault? = none) : draft.Valid := by
  simp only [fault?, Option.orElse_eq_orElse, Option.orElse_eq_or, Option.or_eq_none_iff] at h
  rcases h with ⟨hin, hout, hsome, hrows, hagg⟩
  -- Every rule is a row somewhere, and no row was complained about.
  have hfit : ∀ rule ∈ draft.rules,
      rule.inputs.length = draft.inputs.length ∧ rule.outputs.length = draft.outputs.length := by
    intro rule hrule
    rcases exists_row_of_mem hrule 0 with ⟨row, hrow, rfl⟩
    exact (misfit?_eq_none_iff _ _ row).mp (List.findSome?_eq_none_iff.mp hrows row hrow)
  -- An aggregator is complained about for either of two reasons.
  have hfold : draft.aggregator ≠ none →
      draft.policy = .collect ∧ draft.outputs.length = 1 := by
    intro hne
    unfold misplacedAggregator? at hagg
    split at hagg
    · next hnone => exact absurd hnone hne
    · split at hagg
      · cases hagg
      · next hpolicy =>
          split at hagg
          · cases hagg
          · next hsingle =>
              exact ⟨Decidable.not_not.mp hpolicy, Decidable.not_not.mp hsingle⟩
  exact {
    inputs_nodup := (duplicate?_eq_none_iff draft.inputs).mp hin
    outputs_nodup := (duplicate?_eq_none_iff draft.outputs).mp hout
    outputs_ne_nil := by
      intro hnil
      rw [withoutOutputs?, hnil] at hsome
      cases hsome
    inputs_length := fun rule hrule => (hfit rule hrule).1
    outputs_length := fun rule hrule => (hfit rule hrule).2
    collects := fun hne => (hfold hne).1
    single_output := fun hne => (hfold hne).2
  }

end Draft

/-- A decision table: a draft whose parts fit. -/
structure Table extends Draft where
  valid : toDraft.Valid

/-- The table of a draft, or the first thing that is wrong with it. -/
def Draft.build (draft : Draft) : Except TableError Table :=
  match h : draft.fault? with
  | some fault => .error fault
  | none => .ok ⟨draft, Draft.valid_of_fault?_eq_none h⟩

namespace Table

/-- A line about the table. -/
def text (table : Table) : String :=
  let folding :=
    match table.aggregator with
    | none => ""
    | some aggregator => " " ++ aggregator.text
  s!"DecisionTable({table.id}, {table.inputs.length} inputs, {table.outputs.length} outputs, " ++
    s!"{table.rules.length} rules, {table.policy.text}{folding})"

instance : BEq Table where
  beq a b := a.id == b.id && a.name == b.name && a.inputs == b.inputs && a.outputs == b.outputs &&
    a.rules == b.rules && a.policy == b.policy && a.aggregator == b.aggregator

end Table

end Decision
