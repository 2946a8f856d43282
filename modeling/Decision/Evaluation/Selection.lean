import Decision.Evaluation.Consultation

/-!
# Selection

From the rules that match to the rules that count.

A policy that goes by position alone does not look at outputs, so only the
outputs of the rules it keeps are evaluated, and an error in a discarded rule
goes unnoticed. The other policies need the outputs of every rule that matches
before they can decide. All of them see outputs as the cells produce them:
conversion comes later, and only for the rules that count.

Rules are ranked by the places of their outputs in the value lists of the
clauses, the first clause first. The sort keeps rules of equal rank in the order
of the table.

## Main definitions

* `Candidate`: A rule that matches, with its outputs.
* `Candidate.rank`: Its rank.
* `HitPolicy.select`: The rules that count.
-/

namespace Decision

/-- A rule that matches, with its outputs as the cells produce them. -/
structure Candidate where
  row : Row
  outputs : List Value

/-- The outputs of some cells, evaluated in order. -/
def Expression.outputs (context : Context) : List Expression → Consultation (List Value)
  | [] => pure []
  | cell :: cells => do
      let value ← Consultation.output cell context
      let values ← outputs context cells
      return value :: values

namespace Candidate

/-- A rule with its outputs evaluated. -/
def ofRow (context : Context) (row : Row) : Consultation Candidate := do
  let outputs ← Expression.outputs context row.rule.outputs
  return ⟨row, outputs⟩

/-- Rules with their outputs evaluated, in order. -/
def ofRows (context : Context) : List Row → Consultation (List Candidate)
  | [] => pure []
  | row :: rows => do
      let candidate ← ofRow context row
      let candidates ← ofRows context rows
      return candidate :: candidates

/-- The places of the outputs in the value lists of their clauses. -/
def rank (clauses : List (Clause .output)) (candidate : Candidate) : List Nat :=
  List.zipWith Clause.rank clauses candidate.outputs

/-- Candidates by rank, those of equal rank in the order in which they come. -/
def byRank (clauses : List (Clause .output)) (candidates : List Candidate) : List Candidate :=
  candidates.mergeSort fun a b => !(b.rank clauses).lex (a.rank clauses)

/-- The first candidate, provided that all others have the same outputs. -/
def agreed : List Candidate → Consultation (List Candidate)
  | [] => pure []
  | first :: others =>
      match others.find? fun other => other.outputs != first.outputs with
      | some other => Consultation.fail (.conflictingOutputs first.row.label other.row.label)
      | none => pure [first]

end Candidate

/-- The rules that count among those that match. -/
def HitPolicy.select (policy : HitPolicy) (clauses : List (Clause .output)) (context : Context)
    (matched : List Row) : Consultation (List Candidate) :=
  match policy with
  | .unique =>
      match matched with
      | [] => Consultation.fail .noMatch
      | [only] => Candidate.ofRows context [only]
      | many => Consultation.fail (.multipleMatches (many.map Row.label))
  | .first => Candidate.ofRows context (matched.take 1)
  | .collect => Candidate.ofRows context matched
  | .ruleOrder => Candidate.ofRows context matched
  | .any => do
      let candidates ← Candidate.ofRows context matched
      Candidate.agreed candidates
  | .priority => do
      let candidates ← Candidate.ofRows context matched
      return (Candidate.byRank clauses candidates).take 1
  | .outputOrder => do
      let candidates ← Candidate.ofRows context matched
      return Candidate.byRank clauses candidates

end Decision
