import Decision.Expression.Basic

/-!
# Rules

The rows of a decision table.

The cells of a rule belong to the clauses by their place: the first input cell
tests the first input clause, and so on. An input cell can be left open. That is
not the same as a cell whose text says that everything will do, since an open
cell is never put to the evaluator.

## Main definitions

* `InputEntry`: A cell on the input side.
* `Rule`: A row.
* `Rule.label`: How messages refer to a row.
* `Row.listFrom`: Rules with their places.

## Theorems

* `Row.map_index_listFrom`: The places rise one by one.
* `Row.map_rule_listFrom`: Without the places the rules are as they were.
* `Row.getElem?_listFrom`: The place of a row is where it stands in the list.
* `Row.mem_listFrom_iff`: A row is a rule at its place.
-/

namespace Decision

/-- A cell on the input side of a rule. -/
inductive InputEntry where
  /-- An open cell, which every value passes. -/
  | any
  /-- A condition. -/
  | test (condition : Expression)
deriving DecidableEq, Repr

/-- The text of a cell. -/
def InputEntry.text : InputEntry → String
  | .any => "-"
  | .test condition => condition.text

/-- A row of a decision table. -/
structure Rule where
  id : Option String := none
  inputs : List InputEntry
  outputs : List Expression
deriving DecidableEq, Repr

/-- How messages refer to a rule: by its id, or else by its number, counted from
    one. -/
def Rule.label (rule : Rule) (index : Nat) : String :=
  rule.id.getD s!"#{index + 1}"

/-- A rule and its place in the table, counted from zero. -/
structure Row where
  index : Nat
  rule : Rule
deriving DecidableEq, Repr

/-- How messages refer to a row. -/
def Row.label (row : Row) : String := row.rule.label row.index

/-- Rules with their places, the first of which is given. -/
def Row.listFrom (index : Nat) : List Rule → List Row
  | [] => []
  | rule :: rules => ⟨index, rule⟩ :: listFrom (index + 1) rules

theorem Row.map_index_listFrom (index : Nat) (rules : List Rule) :
    (listFrom index rules).map Row.index = List.range' index rules.length := by
  induction rules generalizing index with
  | nil => rfl
  | cons rule rules ih => rw [listFrom, List.map_cons, ih, List.length_cons, List.range'_succ]

theorem Row.map_rule_listFrom (index : Nat) (rules : List Rule) :
    (listFrom index rules).map Row.rule = rules := by
  induction rules generalizing index with
  | nil => rfl
  | cons rule rules ih => rw [listFrom, List.map_cons, ih]

/-- Rules that are put in place of others take over their numbers. -/
theorem Row.listFrom_map (change : Rule → Rule) (index : Nat) (rules : List Rule) :
    listFrom index (rules.map change) =
      (listFrom index rules).map fun row => { row with rule := change row.rule } := by
  induction rules generalizing index with
  | nil => rfl
  | cons rule rules ih => rw [List.map_cons, listFrom, ih, listFrom, List.map_cons]

theorem Row.rule_mem_of_mem_listFrom {index : Nat} {rules : List Rule} {row : Row}
    (h : row ∈ listFrom index rules) : row.rule ∈ rules := by
  rw [← map_rule_listFrom index rules]
  exact List.mem_map.mpr ⟨row, h, rfl⟩

theorem Row.getElem?_listFrom (index : Nat) (rules : List Rule) (k : Nat) :
    (listFrom index rules)[k]? = rules[k]?.map (Row.mk (index + k)) := by
  induction rules generalizing index k with
  | nil => rfl
  | cons rule rules ih =>
      cases k with
      | zero => rfl
      | succ k =>
          have hplace : index + 1 + k = index + (k + 1) := by omega
          rw [listFrom, List.getElem?_cons_succ, List.getElem?_cons_succ, ih, hplace]

/-- A row is a rule at its place. -/
theorem Row.mem_listFrom_iff {rules : List Rule} {row : Row} :
    row ∈ listFrom 0 rules ↔ rules[row.index]? = some row.rule := by
  rw [List.mem_iff_getElem?]
  simp only [getElem?_listFrom, Nat.zero_add, Option.map_eq_some_iff]
  constructor
  · rintro ⟨k, rule, hrule, hrow⟩
    rw [← hrow]
    exact hrule
  · intro hrule
    exact ⟨row.index, row.rule, hrule, rfl⟩

end Decision
