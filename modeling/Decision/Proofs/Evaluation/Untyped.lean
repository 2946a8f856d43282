import Decision.Proofs.Evaluation.Coercion
import Decision.Proofs.Evaluation.Policies
import Decision.Proofs.Evaluation.Scope

/-!
# Declared Types

A declared type converts a value before the rules are matched or after the rules
that count are chosen, and it does nothing in between.

To say this, the types are taken away. A table without them, given the converted
values of the input clauses as variables, does the part in between and nothing
else. Where it fails the typed table fails in the same way, since no output is
converted before the choice is made. Where it succeeds its report lists the raw
outputs that count, and the typed table has the same report with every output
converted, or the first error that comes up on the way.

The two runs do not have the same context. Both have the same bindings, but the
variables below them are the raw ones in one run and the converted ones in the
other. They differ only on names of input clauses, and those are bound.

## Main definitions

* `Table.untyped`: A table without declared types.
* `Engine.converted`: The variables with the converted values of the clauses.
* `Report.pending`: The outputs in a report, each with its clause.
* `Report.ConvertsTo`: A report is another one with its outputs converted.

## Theorems

* `chosen_untyped`: The choice of rules does not depend on declared types.
* `run_chosen_converted`: Nor does it depend on who converts the inputs.
* `report_of_untyped`: A report of the untyped table is converted or refused.
* `report_untyped`: What the report of the untyped table says about the typed.
-/

namespace Decision

open Consultation

/-! ## Taking the types away -/

/-- A clause without its declared type. -/
def Clause.untyped {role : Role} (clause : Clause role) : Clause role :=
  { clause with typeName := none }

theorem Clause.map_name_untyped {role : Role} (clauses : List (Clause role)) :
    (clauses.map Clause.untyped).map Clause.name = clauses.map Clause.name := by
  rw [List.map_map]
  rfl

/-- A table without the declared types of its clauses. -/
def Table.untyped (table : Table) : Table where
  toDraft := { table.toDraft with
    inputs := table.inputs.map Clause.untyped
    outputs := table.outputs.map Clause.untyped }
  valid := {
    inputs_nodup := by
      rw [Clause.map_name_untyped]
      exact table.valid.inputs_nodup
    outputs_nodup := by
      rw [Clause.map_name_untyped]
      exact table.valid.outputs_nodup
    outputs_ne_nil := fun h => table.valid.outputs_ne_nil (List.map_eq_nil_iff.mp h)
    inputs_length := fun rule hrule => by
      rw [List.length_map]
      exact table.valid.inputs_length rule hrule
    outputs_length := fun rule hrule => by
      rw [List.length_map]
      exact table.valid.outputs_length rule hrule
    collects := table.valid.collects
    single_output := fun h => by
      rw [List.length_map]
      exact table.valid.single_output h
  }

/-! ## The choice of rules -/

theorem InputEntry.allHold_untyped (context : Context) (clauses : List (Clause .input))
    (entries : List InputEntry) :
    InputEntry.allHold context (clauses.map Clause.untyped) entries =
      InputEntry.allHold context clauses entries := by
  induction clauses generalizing entries with
  | nil => rfl
  | cons clause clauses ih =>
      cases entries with
      | nil => rfl
      | cons entry entries =>
          cases entry with
          | any =>
              simp only [List.map_cons, allHold]
              exact ih entries
          | test cell =>
              simp only [List.map_cons, allHold, ih]
              rfl

theorem Row.matching_untyped (inputs : List (Clause .input)) (context : Context)
    (rows : List Row) :
    Row.matching (inputs.map Clause.untyped) context rows = Row.matching inputs context rows := by
  induction rows with
  | nil => rfl
  | cons row rows ih => simp only [matching, InputEntry.allHold_untyped, ih]

/-- The rank of a rule goes by the values that the clauses list. -/
theorem Candidate.rank_untyped (clauses : List (Clause .output)) (candidate : Candidate) :
    candidate.rank (clauses.map Clause.untyped) = candidate.rank clauses := by
  rw [rank, rank, List.zipWith_map_left]
  rfl

theorem HitPolicy.select_untyped (policy : HitPolicy) (clauses : List (Clause .output))
    (context : Context) (matched : List Row) :
    policy.select (clauses.map Clause.untyped) context matched =
      policy.select clauses context matched := by
  cases policy with
  | priority => simp only [select, Candidate.byRank, Candidate.rank_untyped]
  | outputOrder => simp only [select, Candidate.byRank, Candidate.rank_untyped]
  | _ => rfl

/-- The choice of rules does not depend on declared types. -/
theorem Table.chosen_untyped (table : Table) (context : Context) :
    table.untyped.chosen context = table.chosen context := by
  have hmatching : Row.matching table.untyped.inputs context table.untyped.rows =
      Row.matching table.inputs context table.rows := Row.matching_untyped _ _ _
  have hselect : ∀ matched, table.untyped.policy.select table.untyped.outputs context matched =
      table.policy.select table.outputs context matched :=
    fun matched => HitPolicy.select_untyped _ _ _ _
  rw [chosen, chosen, hmatching]
  simp only [hselect]

/-! ## Converted variables -/

namespace Engine

variable (engine : Engine)

/-- The variables with every input clause set to its converted value, or the
    first error in converting them. -/
def converted (inputs : List (Clause .input)) (supplied : Variables) :
    Except EvalError Variables :=
  inputs.foldlM (fun after clause => do
    let value ← engine.convert clause (supplied[clause.name]?.getD .null)
    return after.insert clause.name value) supplied

section Converted

variable {engine} {inputs : List (Clause .input)} {supplied after : Variables}

/-- Where all input clauses can be converted, each name is set to the value of
    its clause. -/
theorem converted_spec {start : Variables}
    (h : inputs.foldlM (fun after clause => do
      let value ← engine.convert clause (supplied[clause.name]?.getD .null)
      return after.insert clause.name value) start = Except.ok after) :
    (∀ clause ∈ inputs, ∃ value,
      engine.convert clause (supplied[clause.name]?.getD .null) = .ok value) ∧
    (∀ name ∉ inputs.map Clause.name, after[name]? = start[name]?) ∧
    ((inputs.map Clause.name).Nodup →
      ∀ clause ∈ inputs, after[clause.name]? = some (engine.bound supplied clause)) := by
  induction inputs generalizing start with
  | nil =>
      rw [List.foldlM_nil] at h
      have hstart : start = after := Except.ok.inj h
      exact ⟨List.forall_mem_nil _, fun name _ => by rw [hstart], fun _ => List.forall_mem_nil _⟩
  | cons clause clauses ih =>
      rw [List.foldlM_cons] at h
      cases hvalue : engine.convert clause (supplied[clause.name]?.getD .null) with
      | error e =>
          rw [hvalue] at h
          exact absurd h nofun
      | ok value =>
          rw [hvalue] at h
          rcases ih h with ⟨hconvert, hother, hset⟩
          have hbound : engine.bound supplied clause = value := coerced_of_convert hvalue
          refine ⟨List.forall_mem_cons.mpr ⟨⟨value, hvalue⟩, hconvert⟩, ?_, ?_⟩
          · intro name hname
            rw [List.map_cons, List.mem_cons, not_or] at hname
            rw [hother name hname.2, Std.ExtTreeMap.getElem?_insert, if_neg]
            intro heq
            exact hname.1 (Std.LawfulEqCmp.eq_of_compare heq).symm
          · intro hnodup
            rw [List.map_cons, List.nodup_cons] at hnodup
            refine List.forall_mem_cons.mpr ⟨?_, hset hnodup.2⟩
            -- No later clause has the name, so the value stays.
            rw [hother clause.name hnodup.1, Std.ExtTreeMap.getElem?_insert_self, hbound]

/-- An untyped clause over the converted variables is bound to the value that the
    typed clause has over the raw ones. -/
theorem foldl_bind_untyped
    (hset : ∀ clause ∈ inputs, after[clause.name]? = some (engine.bound supplied clause))
    (context : Context) :
    (inputs.map Clause.untyped).foldl (fun context clause =>
        context.bind clause.name (engine.bound after clause)) (context.withVariables after) =
      (inputs.foldl (fun context clause =>
        context.bind clause.name (engine.bound supplied clause)) context).withVariables
          after := by
  induction inputs generalizing context with
  | nil => rfl
  | cons clause clauses ih =>
      rw [List.forall_mem_cons] at hset
      have hvalue : engine.bound after clause.untyped = engine.bound supplied clause := by
        show after[clause.name]?.getD .null = _
        rw [hset.1, Option.getD_some]
      rw [List.map_cons, List.foldl_cons, List.foldl_cons, hvalue]
      exact ih hset.2 (context.bind clause.name _)

/-- Binding the untyped clauses to the converted variables makes the bindings
    that the typed clauses make from the raw ones. -/
theorem context_untyped
    (hset : ∀ clause ∈ inputs, after[clause.name]? = some (engine.bound supplied clause)) :
    engine.context (inputs.map Clause.untyped) after =
      (engine.context inputs supplied).withVariables after :=
  foldl_bind_untyped hset (.ofVariables supplied)

end Converted

/-- The same rules are chosen whether the inputs are converted on the way or
    beforehand. -/
theorem run_chosen_converted (converter? : String → Option Converter) {table : Table}
    {supplied after : Variables}
    (h : (simple converter?).converted table.inputs supplied = .ok after) :
    (table.untyped.chosen ((simple converter?).context table.untyped.inputs after)).run
        (simple converter?).reply =
      (table.chosen ((simple converter?).context table.inputs supplied)).run
        (simple converter?).reply := by
  rcases converted_spec h with ⟨_, hother, hset⟩
  have hcontext : (simple converter?).context table.untyped.inputs after =
      ((simple converter?).context table.inputs supplied).withVariables after :=
    context_untyped (hset table.valid.inputs_nodup)
  rw [hcontext, Table.chosen_untyped]
  have halike : (simple converter?).Alike table.inputs table.rows
      ((simple converter?).context table.inputs supplied)
      (((simple converter?).context table.inputs supplied).withVariables after) := by
    refine alike_of_agree converter? rfl fun name _ => Context.get?_withVariables ?_
    rw [mem_bindings_context, variables_context]
    -- The variables differ only on names of clauses, and those are bound.
    by_cases hclause : name ∈ table.inputs.map Clause.name
    · exact Or.inl hclause
    · exact Or.inr (hother name hclause).symm
  exact (run_chosen_congr halike).symm

/-! ## The rules that count -/

/-- Rules that count are rules of the table with the outputs of their cells. -/
theorem exists_row_of_run_chosen {table : Table} {context : Context}
    {chosen : List Row × List Candidate}
    (h : (table.chosen context).run engine.reply = .ok chosen) :
    ∀ candidate ∈ chosen.2, ∃ row ∈ table.rows, candidate = engine.candidate context row := by
  simp only [Table.chosen, run_bind] at h
  rcases exists_of_bind_eq_ok h with ⟨matched, hmatched, hrest⟩
  rcases exists_of_bind_eq_ok hrest with ⟨selected, hselected, hchosen⟩
  have hpair : (matched, selected) = chosen := Except.ok.inj hchosen
  intro candidate hcandidate
  rw [← hpair] at hcandidate
  rcases follows_of_run_eq_ok (engine.follows_select table.policy table.outputs context matched)
    hselected with ⟨_, hverdict⟩
  -- A policy chooses among the rules it looks at, and those are among the matches.
  rcases List.mem_map.mp (HitPolicy.mem_of_mem_verdict hverdict hcandidate) with ⟨row, hrow, rfl⟩
  exact ⟨row, mem_of_run_matching hmatched (HitPolicy.mem_of_mem_considered hrow), rfl⟩

/-- Rules that count have an output for every clause. -/
theorem length_outputs_of_run_chosen {table : Table} {context : Context}
    {chosen : List Row × List Candidate}
    (h : (table.chosen context).run engine.reply = .ok chosen) :
    ∀ candidate ∈ chosen.2, candidate.outputs.length = table.outputs.length := by
  intro candidate hcandidate
  rcases engine.exists_row_of_run_chosen h candidate hcandidate with ⟨row, hrow, rfl⟩
  exact engine.length_outputs_candidate hrow

/-! ## Reports -/

/-- The report of the rules that match and those that count, if every output is
    converted and nothing is folded. -/
def listed (clauses : List (Clause .output)) (chosen : List Row × List Candidate) : Report where
  result := ⟨chosen.2.map (engine.ruleResult clauses)⟩
  matched := chosen.1.map Row.index
  selected := chosen.2.map fun candidate => candidate.row.index

/-- Without an aggregator, an evaluation chooses rules and lists them, unless one
    of their outputs cannot be converted. -/
theorem report_eq_chosen (table : Table) (plain : table.aggregator = none) {supplied : Variables}
    (hinputs : ∀ clause ∈ table.inputs, ∃ value,
      engine.convert clause (supplied[clause.name]?.getD .null) = .ok value) :
    engine.report table supplied =
      ((table.chosen (engine.context table.inputs supplied)).run engine.reply >>= fun chosen =>
        match engine.firstRefusal (chosen.2.flatMap (Candidate.under table.outputs)) with
        | some e => .error e
        | none => .ok (engine.listed table.outputs chosen)) := by
  rw [run_report, run_ofInputs_of_convert hinputs]
  show ((table.chosen _).run engine.reply >>= _) = _
  refine congrArg _ (funext fun chosen => ?_)
  rw [run_results]
  cases engine.firstRefusal (chosen.2.flatMap (Candidate.under table.outputs)) with
  | some e => rfl
  | none =>
      show table.reported chosen.1 chosen.2 _ = _
      rw [Table.reported, Table.finish_of_plain plain]
      rfl

/-- Under untyped clauses nothing is refused. -/
theorem firstRefusal_untyped (clauses : List (Clause .output)) (candidates : List Candidate) :
    engine.firstRefusal (candidates.flatMap (Candidate.under (clauses.map Clause.untyped))) =
      none := by
  rw [firstRefusal_eq_none_iff]
  intro pair hpair
  rcases List.mem_flatMap.mp hpair with ⟨candidate, _, hunder⟩
  rcases List.mem_map.mp (List.of_mem_zip hunder).1 with ⟨clause, _, hclause⟩
  refine ⟨pair.2, convert_of_untyped ?_ pair.2⟩
  rw [← hclause]
  rfl

/-- The report of the untyped table, on variables that are converted already, lists
    the rules that are chosen for the typed table. -/
theorem report_untyped_eq_chosen (converter? : String → Option Converter) {table : Table}
    (plain : table.aggregator = none) {supplied after : Variables}
    (h : (simple converter?).converted table.inputs supplied = .ok after) :
    (simple converter?).report table.untyped after =
      ((table.chosen ((simple converter?).context table.inputs supplied)).run
        (simple converter?).reply).map
          ((simple converter?).listed (table.outputs.map Clause.untyped)) := by
  have huntyped : ∀ clause ∈ table.untyped.inputs, ∃ value,
      (simple converter?).convert clause (after[clause.name]?.getD .null) = .ok value := by
    intro clause hclause
    rcases List.mem_map.mp hclause with ⟨typed, _, rfl⟩
    exact ⟨_, convert_of_untyped rfl _⟩
  have houtputs : table.untyped.outputs = table.outputs.map Clause.untyped := rfl
  rw [report_eq_chosen _ table.untyped plain huntyped, run_chosen_converted converter? h,
    houtputs]
  simp only [firstRefusal_untyped]
  cases (table.chosen ((simple converter?).context table.inputs supplied)).run
      (simple converter?).reply with
  | error e => rfl
  | ok chosen => rfl

end Engine

/-! ## Reports of raw outputs -/

/-- The values in a rule result, each with its clause. -/
def RuleResult.under (clauses : List (Clause .output)) (result : RuleResult) :
    List (Clause .output × Value) := clauses.zip (result.entries.map Prod.snd)

/-- The values in a report, each with its clause, in the order of the results and
    within a result in the order of the clauses. -/
def Report.pending (clauses : List (Clause .output)) (report : Report) :
    List (Clause .output × Value) := report.result.rules.flatMap (RuleResult.under clauses)

/-- A rule result is another one with its values converted. -/
structure RuleResult.ConvertsTo (engine : Engine) (clauses : List (Clause .output))
    (raw result : RuleResult) : Prop where
  index_eq : result.index = raw.index
  id_eq : result.id = raw.id
  /-- Both have an entry for every clause. -/
  raw_names : raw.entries.map Prod.fst = clauses.map Clause.name
  names : result.entries.map Prod.fst = clauses.map Clause.name
  values : List.Forall₂ (fun (pair : Clause .output × Value) value =>
    engine.convert pair.1 pair.2 = .ok value) (raw.under clauses) (result.entries.map Prod.snd)

/-- A report is another one with its values converted. -/
structure Report.ConvertsTo (engine : Engine) (clauses : List (Clause .output))
    (raw report : Report) : Prop where
  matched_eq : report.matched = raw.matched
  selected_eq : report.selected = raw.selected
  results : List.Forall₂ (RuleResult.ConvertsTo engine clauses) raw.result.rules
    report.result.rules

namespace Engine

variable (engine : Engine)

/-- The values in the result of a rule under untyped clauses are its outputs. -/
theorem under_ruleResult_untyped {clauses : List (Clause .output)} {candidate : Candidate}
    (h : candidate.outputs.length = clauses.length) :
    (engine.ruleResult (clauses.map Clause.untyped) candidate).under clauses =
      candidate.under clauses := by
  have hvalues : ((engine.ruleResult (clauses.map Clause.untyped) candidate).entries.map
      Prod.snd) = candidate.outputs := by
    rw [ruleResult, map_snd_entries]
    have hcoerced : ((clauses.map Clause.untyped).zip candidate.outputs).map
        (fun pair => engine.coerced pair.1 pair.2) =
          ((clauses.map Clause.untyped).zip candidate.outputs).map Prod.snd := by
      refine List.map_congr_left fun pair hpair => ?_
      rcases List.mem_map.mp (List.of_mem_zip hpair).1 with ⟨clause, _, hclause⟩
      rw [← hclause]
      rfl
    rw [hcoerced, List.map_snd_zip]
    rw [List.length_map, h]
  rw [RuleResult.under, Candidate.under, hvalues]

theorem pending_listed_untyped {clauses : List (Clause .output)}
    {chosen : List Row × List Candidate}
    (h : ∀ candidate ∈ chosen.2, candidate.outputs.length = clauses.length) :
    (engine.listed (clauses.map Clause.untyped) chosen).pending clauses =
      chosen.2.flatMap (Candidate.under clauses) := by
  rw [Report.pending, listed, List.flatMap_map]
  exact List.flatMap_congr fun candidate hcandidate =>
    engine.under_ruleResult_untyped (h candidate hcandidate)

/-- Listing rules under typed clauses converts what is listed under untyped
    ones. -/
theorem convertsTo_listed {clauses : List (Clause .output)} {chosen : List Row × List Candidate}
    (hlength : ∀ candidate ∈ chosen.2, candidate.outputs.length = clauses.length)
    (hconvert : engine.firstRefusal (chosen.2.flatMap (Candidate.under clauses)) = none) :
    (engine.listed (clauses.map Clause.untyped) chosen).ConvertsTo engine clauses
      (engine.listed clauses chosen) where
  matched_eq := rfl
  selected_eq := rfl
  results := by
    rw [listed, listed, List.forall₂_map_left_iff, List.forall₂_map_right_iff, List.forall₂_same]
    intro candidate hcandidate
    have hlen := hlength candidate hcandidate
    refine ⟨rfl, rfl, ?_, engine.map_fst_entries hlen, ?_⟩
    · rw [ruleResult, engine.map_fst_entries, Clause.map_name_untyped]
      rw [List.length_map, hlen]
    · rw [engine.under_ruleResult_untyped hlen, ruleResult, map_snd_entries, Candidate.under,
        List.forall₂_map_right_iff, List.forall₂_same]
      intro pair hpair
      -- Every output that counts can be converted, and the entry holds what it yields.
      rcases firstRefusal_eq_none_iff.mp hconvert pair
        (List.mem_flatMap.mpr ⟨candidate, hcandidate, hpair⟩) with ⟨value, hvalue⟩
      rw [hvalue, coerced_of_convert hvalue]

/-! ## Typed and untyped tables -/

section Typed

variable (converter? : String → Option Converter) {table : Table} {supplied after : Variables}

/-- An error of the untyped table comes up before anything is converted. -/
theorem report_error_of_untyped (plain : table.aggregator = none)
    (h : (simple converter?).converted table.inputs supplied = .ok after) {e : EvalError}
    (he : (simple converter?).report table.untyped after = .error e) :
    (simple converter?).report table supplied = .error e := by
  rw [report_untyped_eq_chosen converter? plain h] at he
  rw [report_eq_chosen _ table plain (converted_spec h).1]
  cases hchosen : (table.chosen ((simple converter?).context table.inputs supplied)).run
      (simple converter?).reply with
  | error e' =>
      rw [hchosen] at he
      rw [← Except.error.inj he]
      rfl
  | ok chosen =>
      rw [hchosen] at he
      exact absurd he nofun

/-- A report of the untyped table is converted, unless one of its values is
    refused. -/
theorem report_of_untyped (plain : table.aggregator = none)
    (h : (simple converter?).converted table.inputs supplied = .ok after) {raw : Report}
    (hraw : (simple converter?).report table.untyped after = .ok raw) :
    ∃ report,
      ((simple converter?).report table supplied =
        match (simple converter?).firstRefusal (raw.pending table.outputs) with
        | some e => .error e
        | none => .ok report) ∧
      ((simple converter?).firstRefusal (raw.pending table.outputs) = none →
        raw.ConvertsTo (simple converter?) table.outputs report) := by
  rw [report_untyped_eq_chosen converter? plain h] at hraw
  rw [report_eq_chosen _ table plain (converted_spec h).1]
  cases hchosen : (table.chosen ((simple converter?).context table.inputs supplied)).run
      (simple converter?).reply with
  | error e =>
      rw [hchosen] at hraw
      exact absurd hraw nofun
  | ok chosen =>
      rw [hchosen] at hraw
      have hlisted : (simple converter?).listed (table.outputs.map Clause.untyped) chosen = raw :=
        Except.ok.inj hraw
      have hlength := (simple converter?).length_outputs_of_run_chosen hchosen
      refine ⟨(simple converter?).listed table.outputs chosen, ?_, ?_⟩
      · rw [← hlisted, pending_listed_untyped _ hlength]
        rfl
      · rw [← hlisted, pending_listed_untyped _ hlength]
        exact convertsTo_listed _ hlength

end Typed

/-- Where the inputs can be converted, a table without an aggregator does what it
    does without its types on the converted variables, and converts the outputs
    afterwards. An error of the untyped table is the error of the typed one. A
    report of the untyped table leads to a report of the typed one exactly if all
    its values can be converted, and then to the one with the converted values;
    if not, the first value that cannot be converted is the error. -/
theorem report_untyped (converter? : String → Option Converter) (table : Table)
    (plain : table.aggregator = none) {supplied after : Variables}
    (h : (simple converter?).converted table.inputs supplied = .ok after) :
    (∀ e, (simple converter?).report table.untyped after = .error e →
      (simple converter?).report table supplied = .error e) ∧
    ∀ raw, (simple converter?).report table.untyped after = .ok raw →
      ((∃ report, (simple converter?).report table supplied = .ok report) ↔
        ∀ pair ∈ raw.pending table.outputs, ∃ value,
          (simple converter?).convert pair.1 pair.2 = .ok value) ∧
      (∀ report, (simple converter?).report table supplied = .ok report →
        raw.ConvertsTo (simple converter?) table.outputs report) ∧
      ∀ before pair rest e, raw.pending table.outputs = before ++ pair :: rest →
        (∀ earlier ∈ before, ∃ value,
          (simple converter?).convert earlier.1 earlier.2 = .ok value) →
        (simple converter?).convert pair.1 pair.2 = .error e →
        (simple converter?).report table supplied = .error e := by
  refine ⟨fun e he => report_error_of_untyped converter? plain h he, fun raw hraw => ?_⟩
  -- With types the outcome is what was reported without, up to the first refusal.
  rcases report_of_untyped converter? plain h hraw with ⟨converted, hreport, hconverts⟩
  rw [hreport, ← firstRefusal_eq_none_iff]
  refine ⟨?_, ?_, ?_⟩
  · cases (simple converter?).firstRefusal (raw.pending table.outputs) with
    | some e => exact iff_of_false nofun nofun
    | none => exact iff_of_true ⟨converted, rfl⟩ rfl
  · intro report hsome
    cases hfirst : (simple converter?).firstRefusal (raw.pending table.outputs) with
    | some e =>
        rw [hfirst] at hsome
        exact absurd hsome nofun
    | none =>
        rw [hfirst] at hsome
        rw [← Except.ok.inj hsome]
        exact hconverts hfirst
  · intro before pair rest e hsplit hbefore hpair
    rw [firstRefusal_eq_some_iff.mpr ⟨before, pair, rest, hsplit, hbefore, hpair⟩]

end Engine

/-! ## An instance -/

/-- One input clause and one output clause, each with a type. The rule hands the
    value of the one to the other. -/
def Draft.adultFee : Draft where
  id := "adult fee"
  inputs := [{ name := "age", typeName := some "long" }]
  outputs := [{ name := "fee", typeName := some "string" }]
  rules := [⟨some "adult", [.test ⟨"> 18", none⟩], [⟨"age", none⟩]⟩]

def Table.adultFee : Table := ⟨.adultFee, Draft.valid_of_fault?_eq_none (by decide +kernel)⟩

/-- The report with a given fee. -/
def Report.adultFee (fee : Value) : Report where
  result := ⟨[⟨some 0, some "adult", [("fee", fee)]⟩]⟩
  matched := [0]
  selected := [0]

/-- An age that is given as a text is a number to the rule, and a text again in the
    report. -/
theorem Engine.report_adultFee :
    let engine := Engine.simple Registry.standard.converter?
    let supplied : Variables := (∅ : Variables).insert "age" (.string "42")
    let after : Variables := supplied.insert "age" (.int 42)
    engine.converted Table.adultFee.inputs supplied = .ok after ∧
      engine.report Table.adultFee.untyped after = .ok (.adultFee (.int 42)) ∧
      engine.report .adultFee supplied = .ok (.adultFee (.string "42")) ∧
      (Report.adultFee (.int 42)).ConvertsTo engine Table.adultFee.outputs
        (.adultFee (.string "42")) := by
  intro engine supplied after
  have hconverted : engine.converted Table.adultFee.inputs supplied = .ok after := rfl
  have hraw : engine.report Table.adultFee.untyped after = .ok (.adultFee (.int 42)) := by
    decide +kernel
  have hreport : engine.report .adultFee supplied = .ok (.adultFee (.string "42")) := by
    decide +kernel
  have hconverts := (report_untyped Registry.standard.converter? .adultFee rfl hconverted).2 _ hraw
  exact ⟨hconverted, hraw, hreport, hconverts.2.1 _ hreport⟩

end Decision
