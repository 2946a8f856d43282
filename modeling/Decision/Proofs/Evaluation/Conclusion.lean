import Decision.Proofs.Evaluation.Labels

/-!
# After the Matching

What an evaluation still wants to know of a rule once it matches.

The input cells of a rule decide whether it matches, and nobody looks at them
again. Its output cells are evaluated. Its place goes into the report, and its
place or its id into the labels that some errors have.

So a rule that matches may be exchanged for one with the same output cells. The
policy selects the rules that stand for those it selected before, in the same
order, or it fails with an error that is the same but for the labels. How much of
an error is compared is left to whoever compares: `Corresponds` has a relation
between errors as a parameter, and `Row.Covers` says what it has to allow for. If
rules keep their places and their ids, they keep their labels, and the relation is
equality.

The evaluation is cut in two for this, right behind the matching. Two tables
that differ in their input sides only have the second half in common, and
whoever compares them is left with the first.

## Main definitions

* `Table.concluded`: What is made of the rules that match.
* `Corresponds`: How two outcomes compare.
* `Row.Covers`: Errors are related as they have to be if rows are exchanged.
* `Row.Keeps`: Rows are exchanged for others with the same place, id and outputs.

## Theorems

* `run_report_concluded`: An evaluation is its first half and its second.
* `corresponds_select`: Exchanged rows are selected like those they stand for.
* `run_results_map`: Their results are those of the others, exchanged likewise.
* `run_concluded_map`: Rows with the same place and id lead to the same outcome.
-/

namespace Decision

open Consultation

/-- What an evaluation makes of the rules that match. -/
def Table.concluded (table : Table) (context : Context) (matched : List Row) :
    Consultation Report := do
  let selected ← table.policy.select table.outputs context matched
  let results ← Candidate.results table.outputs selected
  done (table.reported matched selected results)

/-- An evaluation binds the input clauses, matches the rules, and draws its
    conclusion from those that match. -/
theorem Engine.run_report_concluded (engine : Engine) (table : Table) (supplied : Variables) :
    engine.report table supplied =
      ((Context.ofInputs table.inputs supplied).run engine.reply >>= fun context =>
        (Row.matching table.inputs context table.rows).run engine.reply >>= fun matched =>
          (table.concluded context matched).run engine.reply) := by
  simp only [run_report, Table.chosen, Table.concluded, run_bind, bind_assoc]
  rfl

/-! ## Outcomes side by side -/

/-- Two outcomes correspond: a value is moved by a function, and an error is
    related to another. -/
inductive Corresponds {α β : Type} (move : α → β) (related : EvalError → EvalError → Prop) :
    Except EvalError α → Except EvalError β → Prop
  | ok (a : α) : Corresponds move related (.ok a) (.ok (move a))
  | error {e e' : EvalError} (h : related e e') : Corresponds move related (.error e) (.error e')

section Corresponds

variable {α α' β β' : Type} {related : EvalError → EvalError → Prop}

/-- Outcomes that correspond may be gone on with if what follows corresponds. -/
theorem corresponds_bind {first : Except EvalError α} {first' : Except EvalError α'}
    {next : α → Except EvalError β} {next' : α' → Except EvalError β'} {move : α → α'}
    {move' : β → β'} (h : Corresponds move related first first')
    (hnext : ∀ a, first = .ok a → Corresponds move' related (next a) (next' (move a))) :
    Corresponds move' related (first >>= next) (first' >>= next') := by
  cases h with
  | ok a => exact hnext a rfl
  | error he => exact .error he

/-- An outcome corresponds to itself with its value moved if its errors may stay. -/
theorem corresponds_map {move : α → β} {outcome : Except EvalError α}
    (h : ∀ e, outcome = .error e → related e e) :
    Corresponds move related outcome (outcome.map move) := by
  cases outcome with
  | ok a => exact .ok a
  | error e => exact .error (h e rfl)

/-- Outcomes whose errors are equal differ in the value only. -/
theorem eq_map_of_corresponds {move : α → β} {outcome : Except EvalError α}
    {outcome' : Except EvalError β} (h : Corresponds move Eq outcome outcome') :
    outcome' = outcome.map move := by
  cases h with
  | ok a => rfl
  | error he => exact congrArg Except.error he.symm

end Corresponds

/-! ## Exchanging rows -/

/-- A rule that matches, exchanged for another, with the outputs that it had. -/
def Candidate.exchanged (exchange : Row → Row) (candidate : Candidate) : Candidate :=
  { candidate with row := exchange candidate.row }

/-- A relation between errors covers what becomes of them if rows are exchanged, where
    `candidates` are the rules that match. -/
structure Row.Covers (exchange : Row → Row) (candidates : List Candidate)
    (related : EvalError → EvalError → Prop) : Prop where
  /-- An error that names no rule stays as it is. -/
  unlabelled : ∀ {e}, e.labels = [] → related e e
  several : related (.multipleMatches (candidates.map fun candidate => candidate.row.label))
    (.multipleMatches (candidates.map fun candidate => (candidate.exchanged exchange).row.label))
  conflict : ∀ {first other others}, candidates = first :: others →
    (others.find? fun other => other.outputs != first.outputs) = some other →
    related (.conflictingOutputs first.row.label other.row.label)
      (.conflictingOutputs (first.exchanged exchange).row.label
        (other.exchanged exchange).row.label)

/-- Ranks are read off outputs. -/
theorem Candidate.byRank_exchanged (exchange : Row → Row) (clauses : List (Clause .output))
    (candidates : List Candidate) :
    byRank clauses (candidates.map (exchanged exchange)) =
      (byRank clauses candidates).map (exchanged exchange) := by
  have hrank : ∀ candidate : Candidate, (candidate.exchanged exchange).rank clauses =
      candidate.rank clauses := fun _ => rfl
  refine (List.map_mergeSort fun a _ b _ => ?_).symm
  rw [hrank, hrank]

namespace Engine

variable {engine : Engine} {exchange : Row → Row} {related : EvalError → EvalError → Prop}

theorem run_ofRows_map (h : ∀ row, (exchange row).rule.outputs = row.rule.outputs)
    (context : Context) (rows : List Row) :
    (Candidate.ofRows context (rows.map exchange)).run engine.reply =
      ((Candidate.ofRows context rows).run engine.reply).map
        (List.map (Candidate.exchanged exchange)) := by
  induction rows with
  | nil => rfl
  | cons row rows ih =>
      simp only [List.map_cons, Candidate.ofRows, Candidate.ofRow, run_bind, ih, h]
      cases (Expression.outputs context row.rule.outputs).run engine.reply with
      | error e => rfl
      | ok outputs => cases (Candidate.ofRows context rows).run engine.reply <;> rfl

/-- Exchanged rules agree if those they stand for do. -/
theorem corresponds_agreed {candidates : List Candidate}
    (h : Row.Covers exchange candidates related) :
    Corresponds (List.map (Candidate.exchanged exchange)) related
      ((Candidate.agreed candidates).run engine.reply)
      ((Candidate.agreed (candidates.map (Candidate.exchanged exchange))).run engine.reply) := by
  cases candidates with
  | nil => exact .ok []
  | cons first others =>
      have hfind : ((others.map (Candidate.exchanged exchange)).find? fun other =>
            other.outputs != (first.exchanged exchange).outputs) =
          (others.find? fun other => other.outputs != first.outputs).map
            (Candidate.exchanged exchange) := List.find?_map
      simp only [List.map_cons, Candidate.agreed, hfind]
      cases hother : others.find? fun other => other.outputs != first.outputs with
      | none => exact .ok [first]
      | some other => exact .error (h.conflict rfl hother)

/-- Exchanged rules are selected like those they stand for, whatever the policy is. -/
theorem corresponds_select (houtputs : ∀ row, (exchange row).rule.outputs = row.rule.outputs)
    (policy : HitPolicy) (clauses : List (Clause .output)) (context : Context)
    (matched : List Row)
    (h : Row.Covers exchange (matched.map (engine.candidate context)) related) :
    Corresponds (List.map (Candidate.exchanged exchange)) related
      ((policy.select clauses context matched).run engine.reply)
      ((policy.select clauses context (matched.map exchange)).run engine.reply) := by
  have hrows : ∀ rows, Corresponds (List.map (Candidate.exchanged exchange)) related
      ((Candidate.ofRows context rows).run engine.reply)
      ((Candidate.ofRows context (rows.map exchange)).run engine.reply) := by
    intro rows
    rw [run_ofRows_map houtputs]
    exact corresponds_map fun e he => h.unlabelled (unlabelled_ofRows context rows _ e he)
  cases policy with
  | unique =>
      match matched with
      | [] => exact .error (h.unlabelled rfl)
      | [only] => exact hrows [only]
      | first :: second :: others =>
          -- No outputs are evaluated here, but the labels do not need them.
          have hseveral := h.several
          rw [List.map_map, List.map_map] at hseveral
          show Corresponds _ _ _
            (.error (.multipleMatches (((first :: second :: others).map exchange).map _)))
          rw [List.map_map]
          exact .error hseveral
  | first =>
      simp only [HitPolicy.select, ← List.map_take]
      exact hrows (matched.take 1)
  | collect => exact hrows matched
  | ruleOrder => exact hrows matched
  | any =>
      simp only [HitPolicy.select, run_bind]
      refine corresponds_bind (hrows matched) fun candidates hcandidates => ?_
      rcases follows_of_run_eq_ok (engine.follows_ofRows context matched) hcandidates with
        ⟨_, hvalues⟩
      -- The outputs that are compared are those of the rules that match.
      rw [Except.ok.inj hvalues] at h
      exact corresponds_agreed h
  | priority =>
      simp only [HitPolicy.select, run_bind]
      refine corresponds_bind (hrows matched) fun candidates _ => ?_
      rw [Candidate.byRank_exchanged, ← List.map_take]
      exact .ok _
  | outputOrder =>
      simp only [HitPolicy.select, run_bind]
      refine corresponds_bind (hrows matched) fun candidates _ => ?_
      rw [Candidate.byRank_exchanged]
      exact .ok _

/-- The results of exchanged rules are exchanged as their places and ids are. -/
theorem run_results_map {move : RuleResult → RuleResult}
    (h : ∀ row entries, RuleResult.mk (some (exchange row).index) (exchange row).rule.id entries =
      move ⟨some row.index, row.rule.id, entries⟩)
    (clauses : List (Clause .output)) (selected : List Candidate) :
    (Candidate.results clauses (selected.map (Candidate.exchanged exchange))).run engine.reply =
      ((Candidate.results clauses selected).run engine.reply).map (List.map move) := by
  induction selected with
  | nil => rfl
  | cons candidate selected ih =>
      simp only [List.map_cons, Candidate.results, run_bind, ih, Candidate.exchanged, h]
      cases (Clause.entries clauses candidate.outputs).run engine.reply with
      | error e => rfl
      | ok entries => cases (Candidate.results clauses selected).run engine.reply <;> rfl

end Engine

/-! ## Exchanging rows for others with their labels -/

/-- Rows are exchanged for others that have the same place, id and output cells. -/
structure Row.Keeps (exchange : Row → Row) : Prop where
  index_eq : ∀ row, (exchange row).index = row.index
  id_eq : ∀ row, (exchange row).rule.id = row.rule.id
  outputs_eq : ∀ row, (exchange row).rule.outputs = row.rule.outputs

namespace Engine

variable {engine : Engine} {exchange : Row → Row}

/-- An error has the same labels afterwards. -/
theorem covers_eq (h : Row.Keeps exchange) (candidates : List Candidate) :
    Row.Covers exchange candidates Eq := by
  have hlabel : ∀ candidate : Candidate,
      (candidate.exchanged exchange).row.label = candidate.row.label := by
    intro candidate
    rw [Candidate.exchanged, Row.label, Row.label, Rule.label, Rule.label, h.index_eq, h.id_eq]
  refine ⟨fun _ => rfl, ?_, fun _ _ => ?_⟩
  · simp only [hlabel]
  · rw [hlabel, hlabel]

/-- No policy looks at the input cells of rules that match. -/
theorem run_select_map (h : Row.Keeps exchange) (policy : HitPolicy)
    (clauses : List (Clause .output)) (context : Context) (matched : List Row) :
    (policy.select clauses context (matched.map exchange)).run engine.reply =
      ((policy.select clauses context matched).run engine.reply).map
        (List.map (Candidate.exchanged exchange)) :=
  eq_map_of_corresponds (corresponds_select h.outputs_eq policy clauses context matched
    (covers_eq h _))

/-- Rows that are exchanged for others with the same place, id and output cells lead
    to the same outcome. -/
theorem run_concluded_map (h : Row.Keeps exchange) (table : Table) (context : Context)
    (matched : List Row) :
    (table.concluded context (matched.map exchange)).run engine.reply =
      (table.concluded context matched).run engine.reply := by
  have hreported : ∀ selected results,
      table.reported (matched.map exchange) (selected.map (Candidate.exchanged exchange)) results =
        table.reported matched selected results := by
    intro selected results
    simp only [Table.reported, List.map_map, Function.comp_def, Candidate.exchanged, h.index_eq]
  -- With the same places and ids the results are the same, too.
  have hresults : ∀ selected,
      (Candidate.results table.outputs (selected.map (Candidate.exchanged exchange))).run
        engine.reply = (Candidate.results table.outputs selected).run engine.reply := by
    intro selected
    have hsame : ∀ row entries,
        RuleResult.mk (some (exchange row).index) (exchange row).rule.id entries =
          id ⟨some row.index, row.rule.id, entries⟩ := by
      intro row entries
      rw [h.index_eq, h.id_eq, id_eq]
    rw [run_results_map hsame, List.map_id_fun, Except.map_id, id_eq]
  simp only [Table.concluded, run_bind, run_select_map h]
  cases (table.policy.select table.outputs context matched).run engine.reply with
  | error e => rfl
  | ok selected =>
      show ((Candidate.results table.outputs
        (selected.map (Candidate.exchanged exchange))).run engine.reply >>= _) =
          ((Candidate.results table.outputs selected).run engine.reply >>= _)
      rw [hresults]
      refine congrArg _ (funext fun results => ?_)
      exact hreported selected results

end Engine

end Decision
