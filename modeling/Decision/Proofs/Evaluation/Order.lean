import Decision.Proofs.Conversion.Equality
import Decision.Proofs.Evaluation.Account
import Mathlib.Data.List.Pairwise

/-!
# The Order of the Rules

What the order of the rules decides under the policies that have no use for it.

Under UNIQUE one rule has to match, and under ANY all rules that match have to
agree. Neither speaks of a first or a last rule, so one would expect the rules of
such a table to be a set. For success this is true: the same questions are asked
in another order, and whether any two of some outputs are equal does not depend
on which of them comes first, because equality is symmetric and transitive.

For the results it is almost true. UNIQUE reports the one rule there is. ANY
reports the first of several that agree, and agreement is equality of outputs
before their conversion. Equal outputs are converted to equal values, with one
exception: the two zeros are equal, and their texts are not. So under an output
clause with the string type a report can say `0` or `-0` depending on which rule
comes first. Nor is a value always equal to itself, because a NaN is not, so even
the same rules in the same order report values that are not equal.
`Table.EntriesAgree` is what holds of two reports, and `EqualEntries` is what
does not.

## Main definitions

* `RuleResult.Compares`: Two results compare entry by entry.
* `Table.withRules`: A table with its rules in another order.
* `Table.IndependentOfOrder`: The order of the rules decides nothing that a
  relation between entries can see.
* `Table.EntriesAgree`: How entries at one place compare.
* `EqualEntries`: One name and equal values.
* `Candidate.Agree`: How the outputs of rules compare of which one counts.

## Theorems

* `matched_perm`: The same rules match in any order.
* `verdict_any_iff`: Rules agree if any two of them do.
* `exists_selected_withRules`: Rules count in one order if they do in another.
* `independentOfOrder_of_policy`: What is true of UNIQUE and ANY.
* `not_independentOfOrder_equalEntries`: What is not.
-/

namespace Decision

open Consultation

/-! ## Tables in another order -/

/-- The entries of two results, place by place, compare in a given way. -/
def RuleResult.Compares (compare : String × Value → String × Value → Prop)
    (first second : RuleResult) : Prop := List.Forall₂ compare first.entries second.entries

namespace Table

/-- The table with its rules in another order. -/
def withRules (table : Table) (rules : List Rule) (h : rules.Perm table.rules) : Table where
  toDraft := { table.toDraft with rules := rules }
  valid := {
    inputs_nodup := table.valid.inputs_nodup
    outputs_nodup := table.valid.outputs_nodup
    outputs_ne_nil := table.valid.outputs_ne_nil
    inputs_length := fun rule hrule => table.valid.inputs_length rule (h.mem_iff.mp hrule)
    outputs_length := fun rule hrule => table.valid.outputs_length rule (h.mem_iff.mp hrule)
    collects := table.valid.collects
    single_output := table.valid.single_output
  }

/-- In any order of the rules the table has a report or it has none, and what is
    reported has as many results, with as many entries, that compare in a given
    way. -/
def IndependentOfOrder (table : Table) (compare : String × Value → String × Value → Prop) :
    Prop :=
  ∀ (rules : List Rule) (h : rules.Perm table.rules) (supplied : Variables),
    ((∃ report, Engine.standard.report table supplied = .ok report) ↔
      ∃ report, Engine.standard.report (table.withRules rules h) supplied = .ok report) ∧
    ∀ report other, Engine.standard.report table supplied = .ok report →
      Engine.standard.report (table.withRules rules h) supplied = .ok other →
      List.Forall₂ (RuleResult.Compares compare) report.result.rules other.result.rules

/-- How the entries at one place of two reports compare, if the rules are in
    different orders. -/
structure EntriesAgree (table : Table) (first second : String × Value) : Prop where
  name_eq : first.1 = second.1
  same_of_unique : table.policy = .unique → first.2 = second.2
  /-- In any case they are what equal values are converted to. -/
  agree : ∃ clause ∈ table.outputs, clause.name = first.1 ∧
    first.2.AgreeUnder clause.typeName second.2

/-- An aggregator needs collected values, which these policies do not have. -/
theorem plain_of_policy {table : Table} (h : table.policy = .unique ∨ table.policy = .any) :
    table.aggregator = none := by
  by_contra haggregator
  have hcollect := table.valid.collects haggregator
  rcases h with h | h <;> rw [hcollect] at h <;> exact absurd h nofun

end Table

/-- Two entries have one name and equal values. -/
def EqualEntries (first second : String × Value) : Prop :=
  first.1 = second.1 ∧ (first.2 == second.2) = true

/-! ## Policies without an order -/

namespace HitPolicy

variable {policy : HitPolicy}

/-- A policy without an order looks at the same rules in any order. -/
theorem considered_perm (hpolicy : policy = .unique ∨ policy = .any) {first second : List Row}
    (h : (first.map Row.rule).Perm (second.map Row.rule)) :
    ((policy.considered first).map Row.rule).Perm ((policy.considered second).map Row.rule) := by
  rcases hpolicy with rfl | rfl
  · -- Only the number of rules decides whether they are looked at.
    have hlength : first.length = second.length := by
      have hmapped := h.length_eq
      rw [List.length_map, List.length_map] at hmapped
      exact hmapped
    match first, second, hlength with
    | [], [], _ => exact List.Perm.refl _
    | [_], [_], _ => exact h
    | _ :: _ :: _, _ :: _ :: _, _ => exact List.Perm.refl _
  · exact h

/-- Under UNIQUE a rule counts if it is the only one. -/
theorem verdict_unique_iff {clauses : List (Clause .output)} {matched : List Row}
    {candidates selected : List Candidate} :
    HitPolicy.unique.verdict clauses matched candidates = .ok selected ↔
      matched.length = 1 ∧ candidates = selected := by
  match matched with
  | [] => exact iff_of_false nofun (fun hone => absurd hone.1 nofun)
  | [row] =>
      show Except.ok candidates = Except.ok selected ↔ _
      rw [Except.ok.injEq]
      exact (and_iff_right rfl).symm
  | row :: other :: others => exact iff_of_false nofun (fun hone => absurd hone.1 nofun)

/-- Rules agree under ANY if any two of them have equal outputs. -/
theorem verdict_any_iff {clauses : List (Clause .output)} {matched : List Row}
    {candidates selected : List Candidate} :
    HitPolicy.any.verdict clauses matched candidates = .ok selected ↔
      (candidates.map Candidate.outputs).Pairwise (fun a b => (a == b) = true) ∧
        candidates.take 1 = selected := by
  cases candidates with
  | nil =>
      show Except.ok [] = Except.ok selected ↔ _
      rw [Except.ok.injEq]
      exact (and_iff_right List.Pairwise.nil).symm
  | cons head others =>
      rw [List.map_cons, List.pairwise_cons]
      simp only [verdict]
      cases hfind : others.find? fun other => other.outputs != head.outputs with
      | some other =>
          refine iff_of_false (fun hok => by cases hok) ?_
          rintro ⟨⟨hhead, _⟩, _⟩
          have hmem : other.outputs ∈ others.map Candidate.outputs :=
            List.mem_map.mpr ⟨other, List.mem_of_find?_eq_some hfind, rfl⟩
          have hequal := BEq.symm (hhead other.outputs hmem)
          have hdiffers : (other.outputs != head.outputs) = true :=
            List.find?_some (p := fun other : Candidate => other.outputs != head.outputs) hfind
          rw [bne, hequal] at hdiffers
          exact absurd hdiffers Bool.false_ne_true
      | none =>
          -- All others equal the first, and therefore one another.
          have hhead : ∀ outputs ∈ others.map Candidate.outputs,
              (outputs == head.outputs) = true := by
            intro outputs houtputs
            rcases List.mem_map.mp houtputs with ⟨other, hother, rfl⟩
            have hnot := List.find?_eq_none.mp hfind other hother
            rw [bne, Bool.not_eq_true, Bool.not_eq_false'] at hnot
            exact hnot
          have hothers : ∀ outputs ∈ others.map Candidate.outputs,
              (head.outputs == outputs) = true :=
            fun outputs houtputs => BEq.symm (hhead outputs houtputs)
          have hpairs : (others.map Candidate.outputs).Pairwise (fun a b => (a == b) = true) :=
            List.pairwise_of_forall_mem_list fun a ha b hb => BEq.trans (hhead a ha) (hothers b hb)
          rw [Except.ok.injEq]
          exact (and_iff_right ⟨hothers, hpairs⟩).symm

/-- Two outputs agree, so that one may count in place of the other, if they are the
    same or, under ANY, equal. -/
def ValuesAgree (policy : HitPolicy) (first second : Value) : Prop :=
  first = second ∨ (policy = .any ∧ (first == second) = true)

/-- Lists of outputs agree place by place if the lists do. -/
theorem forall₂_valuesAgree {first second : List Value}
    (h : first = second ∨ (policy = .any ∧ (first == second) = true)) :
    List.Forall₂ policy.ValuesAgree first second := by
  rcases h with rfl | ⟨hany, hequal⟩
  · exact List.forall₂_same.mpr fun value _ => Or.inl rfl
  · exact (Value.forall₂_of_beq hequal).imp fun a b hab => Or.inr ⟨hany, hab⟩

end HitPolicy

/-- The outputs of two rules agree, place by place. -/
def Candidate.Agree (policy : HitPolicy) (first second : Candidate) : Prop :=
  List.Forall₂ policy.ValuesAgree first.outputs second.outputs

namespace Engine

section Rules

variable (engine : Engine) {table : Table} (supplied : Variables) {rules : List Rule}

theorem map_rule_matched :
    (engine.matched table supplied).map Row.rule =
      table.rules.filter fun rule => engine.grants (engine.tests table supplied rule) := by
  have hrules : table.rules = table.rows.map Row.rule := (Row.map_rule_listFrom 0 _).symm
  rw [hrules, List.filter_map]
  rfl

/-- The same rules match in any order. -/
theorem matched_perm (h : rules.Perm table.rules) :
    ((engine.matched (table.withRules rules h) supplied).map Row.rule).Perm
      ((engine.matched table supplied).map Row.rule) := by
  rw [map_rule_matched, map_rule_matched]
  exact h.filter _

/-- Under UNIQUE the only rule that matches is looked at. -/
theorem exists_candidate_of_unique (hunique : table.policy = .unique)
    (hmatched : (engine.matched table supplied).length = 1) :
    ∃ candidate, engine.candidates table supplied = [candidate] := by
  rcases List.length_eq_one_iff.mp hmatched with ⟨row, hrow⟩
  rw [candidates, hunique, hrow]
  exact ⟨_, rfl⟩

variable (h : rules.Perm table.rules)

/-- The outputs that a policy without an order looks at are the same in any order of
    the rules. -/
theorem outputs_perm (hpolicy : table.policy = .unique ∨ table.policy = .any) :
    ((engine.candidates (table.withRules rules h) supplied).map Candidate.outputs).Perm
      ((engine.candidates table supplied).map Candidate.outputs) := by
  have hconsidered := HitPolicy.considered_perm hpolicy (engine.matched_perm supplied h)
  have houtputs : ∀ rows : List Row,
      (rows.map (engine.candidate (engine.context table.inputs supplied))).map Candidate.outputs =
        (rows.map Row.rule).map fun rule =>
          rule.outputs.map (engine.produced (engine.context table.inputs supplied)) := by
    intro rows
    rw [List.map_map, List.map_map]
    rfl
  have hmapped := hconsidered.map fun rule =>
    rule.outputs.map (engine.produced (engine.context table.inputs supplied))
  rw [← houtputs, ← houtputs] at hmapped
  exact hmapped

/-- Under UNIQUE the rule that counts is the same in any order. -/
theorem exists_selected_unique (hunique : table.policy = .unique) {selected : List Candidate}
    (hselected : engine.selected table supplied = .ok selected) :
    ∃ others, engine.selected (table.withRules rules h) supplied = .ok others ∧
      List.Forall₂ (Candidate.Agree table.policy) selected others := by
  have hperm := engine.outputs_perm supplied h (Or.inl hunique)
  have hlength := (engine.matched_perm supplied h).length_eq
  rw [List.length_map, List.length_map] at hlength
  rw [Engine.selected, hunique, HitPolicy.verdict_unique_iff] at hselected
  rcases engine.exists_candidate_of_unique supplied hunique hselected.1 with ⟨first, hfirst⟩
  have hunique' : (table.withRules rules h).policy = .unique := hunique
  rcases engine.exists_candidate_of_unique supplied hunique' (hlength.trans hselected.1) with
    ⟨second, hsecond⟩
  refine ⟨[second], ?_, ?_⟩
  · rw [Engine.selected]
    show table.policy.verdict _ _ _ = _
    rw [hunique, HitPolicy.verdict_unique_iff]
    exact ⟨hlength.trans hselected.1, hsecond⟩
  · -- Two lists of one item that are the same up to their order are the same.
    rw [hfirst, hsecond] at hperm
    have hsame : second.outputs = first.outputs :=
      List.singleton_inj.mp (List.perm_singleton.mp hperm)
    rw [← hselected.2, hfirst]
    exact .cons (HitPolicy.forall₂_valuesAgree (Or.inl hsame.symm)) .nil

/-- Under ANY the rule that counts may be another one in another order, but it agrees
    with the one it replaces. -/
theorem exists_selected_any (hany : table.policy = .any) {selected : List Candidate}
    (hselected : engine.selected table supplied = .ok selected) :
    ∃ others, engine.selected (table.withRules rules h) supplied = .ok others ∧
      List.Forall₂ (Candidate.Agree table.policy) selected others := by
  have hperm := engine.outputs_perm supplied h (Or.inr hany)
  rw [Engine.selected, hany, HitPolicy.verdict_any_iff] at hselected
  rcases hselected with ⟨hpairs, hselected⟩
  refine ⟨(engine.candidates (table.withRules rules h) supplied).take 1, ?_, ?_⟩
  · rw [Engine.selected]
    show table.policy.verdict _ _ _ = _
    rw [hany, HitPolicy.verdict_any_iff]
    exact ⟨(hperm.pairwise_iff BEq.symm).mpr hpairs, rfl⟩
  · rw [← hselected]
    have hlength := hperm.length_eq
    rw [List.length_map, List.length_map] at hlength
    cases hfirst : engine.candidates table supplied with
    | nil =>
        rw [hfirst] at hlength
        rw [List.length_eq_zero_iff.mp hlength]
        exact .nil
    | cons first others =>
        cases hsecond : engine.candidates (table.withRules rules h) supplied with
        | nil =>
            rw [hfirst, hsecond] at hlength
            cases hlength
        | cons second others' =>
            rw [hfirst] at hperm hpairs
            rw [hsecond] at hperm
            have hmem : second.outputs ∈ (first :: others).map Candidate.outputs :=
              hperm.mem_iff.mp (List.mem_map.mpr ⟨second, List.mem_cons_self, rfl⟩)
            -- The rule that comes first now was among those that had to agree with the first.
            have hagree : first.outputs = second.outputs ∨
                (table.policy = .any ∧ (first.outputs == second.outputs) = true) := by
              by_cases hsame : first.outputs = second.outputs
              · exact Or.inl hsame
              · have hsymm : Std.Symm fun a b : List Value => (a == b) = true :=
                  ⟨fun _ _ => BEq.symm⟩
                exact Or.inr ⟨hany, hpairs.forall
                  (List.mem_map.mpr ⟨first, List.mem_cons_self, rfl⟩) hmem hsame⟩
            exact .cons (HitPolicy.forall₂_valuesAgree hagree) .nil

/-- If some rules count in one order then some count in any other, and their outputs
    agree. -/
theorem exists_selected_withRules (hpolicy : table.policy = .unique ∨ table.policy = .any)
    {selected : List Candidate} (hselected : engine.selected table supplied = .ok selected) :
    ∃ others, engine.selected (table.withRules rules h) supplied = .ok others ∧
      List.Forall₂ (Candidate.Agree table.policy) selected others := by
  rcases hpolicy with hunique | hany
  · exact engine.exists_selected_unique supplied h hunique hselected
  · exact engine.exists_selected_any supplied h hany hselected

/-- The same questions are asked in any order, apart from those about the rules that
    count. -/
theorem quiet_withRules (hpolicy : table.policy = .unique ∨ table.policy = .any)
    (hquiet : ∀ call ∈ engine.script table supplied, call.refusedBy engine.reply = false)
    {others : List Candidate}
    (hothers : engine.selected (table.withRules rules h) supplied = .ok others)
    (hconvert : ∀ candidate ∈ others, ∀ pair ∈ candidate.under table.outputs,
      ∃ value, engine.convert pair.1 pair.2 = .ok value) :
    ∀ call ∈ engine.script (table.withRules rules h) supplied,
      call.refusedBy engine.reply = false := by
  intro call hcall
  simp only [script, List.mem_append] at hcall hquiet
  rcases hcall with ((hbind | htest) | houtput) | hresult
  · exact hquiet call (Or.inl (Or.inl (Or.inl hbind)))
  · -- The rule stands somewhere in the other order too, with the same cells.
    rcases List.mem_flatMap.mp htest with ⟨row, hrow, hasked⟩
    have hrule : row.rule ∈ table.rules := h.mem_iff.mp (Row.rule_mem_of_mem_listFrom hrow)
    rcases Draft.exists_row_of_mem hrule 0 with ⟨other, hother, hsame⟩
    rw [← hsame] at hasked
    exact hquiet call (Or.inl (Or.inl (Or.inr (List.mem_flatMap.mpr ⟨other, hother, hasked⟩))))
  · rcases List.mem_flatMap.mp houtput with ⟨row, hrow, hcell⟩
    have hconsidered := HitPolicy.considered_perm hpolicy (engine.matched_perm supplied h)
    rcases List.mem_map.mp (hconsidered.mem_iff.mp (List.mem_map.mpr ⟨row, hrow, rfl⟩)) with
      ⟨other, hother, hsame⟩
    rw [← hsame] at hcell
    exact hquiet call (Or.inl (Or.inr (List.mem_flatMap.mpr ⟨other, hother, hcell⟩)))
  · rw [resultConversions, hothers] at hresult
    rcases List.mem_flatMap.mp hresult with ⟨candidate, hcandidate, hentry⟩
    rcases List.mem_flatMap.mp hentry with ⟨pair, hpair, hconversion⟩
    exact conversions_quiet_iff.mpr (hconvert candidate hcandidate pair hpair) call hconversion

end Rules

/-! ## Converting outputs that agree -/

section Outputs

variable {table : Table} {policy : HitPolicy} {clause : Clause .output}

/-- With the standard converters equal values can both be brought under a clause or
    neither can. -/
theorem convert_of_beq {a b value : Value} (h : (a == b) = true)
    (hvalue : standard.convert clause a = .ok value) :
    ∃ other, standard.convert clause b = .ok other ∧ value.AgreeUnder clause.typeName other := by
  have hakin := Value.akin_of_beq h
  have hnull : a.isNull = b.isNull := by cases hakin <;> rfl
  rcases convert_eq_ok_iff.mp hvalue with
    ⟨hkept, rfl⟩ | ⟨typeName, converter, htype, ha, hknown, hconverter⟩
  · rw [hnull] at hkept
    exact ⟨b, convert_eq_ok_iff.mpr (Or.inl ⟨hkept, rfl⟩), Or.inr (Or.inl h)⟩
  · rcases Registry.exists_basic_of_standard hknown with ⟨type, hname, rfl⟩
    rcases type.convert_akin hakin hconverter with ⟨other, hother, hagree⟩
    refine ⟨other, convert_eq_ok_iff.mpr (Or.inr ⟨typeName, _, htype, ?_, hknown, hother⟩), ?_⟩
    · rw [← hnull, ha]
    · rw [htype, ← hname]
      exact hagree

theorem convert_of_valuesAgree {a b value : Value} (h : policy.ValuesAgree a b)
    (hvalue : standard.convert clause a = .ok value) :
    ∃ other, standard.convert clause b = .ok other ∧ (policy = .unique → value = other) ∧
      value.AgreeUnder clause.typeName other := by
  rcases h with rfl | ⟨hany, hequal⟩
  · exact ⟨value, hvalue, fun _ => rfl, Or.inl rfl⟩
  · rcases convert_of_beq hequal hvalue with ⟨other, hother, hagree⟩
    refine ⟨other, hother, fun hunique => ?_, hagree⟩
    rw [hunique] at hany
    exact absurd hany nofun

/-- Outputs that agree can all be converted if one of them can, and their entries
    agree. -/
theorem forall₂_entries {clauses : List (Clause .output)}
    (hclauses : ∀ clause ∈ clauses, clause ∈ table.outputs) {first second : List Value}
    (h : List.Forall₂ table.policy.ValuesAgree first second)
    (hfirst : ∀ pair ∈ clauses.zip first, ∃ value, standard.convert pair.1 pair.2 = .ok value) :
    (∀ pair ∈ clauses.zip second, ∃ value, standard.convert pair.1 pair.2 = .ok value) ∧
      List.Forall₂ table.EntriesAgree (standard.entries clauses first)
        (standard.entries clauses second) := by
  induction clauses generalizing first second with
  | nil => exact ⟨fun _ hpair => absurd hpair List.not_mem_nil, .nil⟩
  | cons clause clauses ih =>
      cases h with
      | nil => exact ⟨fun _ hpair => absurd hpair List.not_mem_nil, .nil⟩
      | cons hvalue hvalues =>
          rw [List.zip_cons_cons, List.forall_mem_cons] at hfirst ⊢
          rcases hfirst.1 with ⟨value, hconvert⟩
          rcases convert_of_valuesAgree hvalue hconvert with ⟨other, hother, hunique, hagree⟩
          rcases ih (fun clause hclause => hclauses clause (List.mem_cons_of_mem _ hclause)) hvalues
            hfirst.2 with ⟨hrest, hentries⟩
          refine ⟨⟨⟨other, hother⟩, hrest⟩, ?_⟩
          simp only [entries, List.zipWith_cons_cons, coerced_of_convert hconvert,
            coerced_of_convert hother]
          exact .cons ⟨rfl, hunique, clause, hclauses clause List.mem_cons_self, rfl, hagree⟩
            hentries

/-- The same for the outputs of several rules. -/
theorem forall₂_results {selected others : List Candidate}
    (h : List.Forall₂ (Candidate.Agree table.policy) selected others)
    (hselected : ∀ candidate ∈ selected, ∀ pair ∈ candidate.under table.outputs,
      ∃ value, standard.convert pair.1 pair.2 = .ok value) :
    (∀ candidate ∈ others, ∀ pair ∈ candidate.under table.outputs,
        ∃ value, standard.convert pair.1 pair.2 = .ok value) ∧
      List.Forall₂ (RuleResult.Compares table.EntriesAgree)
        (selected.map (standard.ruleResult table.outputs))
        (others.map (standard.ruleResult table.outputs)) := by
  induction h with
  | nil => exact ⟨fun _ hmem => absurd hmem List.not_mem_nil, .nil⟩
  | cons hfirst _ ih =>
      rw [List.forall_mem_cons] at hselected ⊢
      rcases forall₂_entries (fun _ hclause => hclause) hfirst hselected.1 with ⟨hconvert, hentries⟩
      rcases ih hselected.2 with ⟨hrest, hresults⟩
      exact ⟨⟨hconvert, hrest⟩, .cons hentries hresults⟩

end Outputs

/-! ## Reports in another order -/

section Reports

variable {table : Table} {supplied : Variables}

/-- Where nothing is refused, the outputs of the rules that count can be
    converted. -/
theorem convert_of_selected (engine : Engine)
    (hquiet : ∀ call ∈ engine.script table supplied, call.refusedBy engine.reply = false)
    {selected : List Candidate} (hselected : engine.selected table supplied = .ok selected) :
    ∀ candidate ∈ selected, ∀ pair ∈ candidate.under table.outputs,
      ∃ value, engine.convert pair.1 pair.2 = .ok value := by
  intro candidate hcandidate pair hpair
  refine conversions_quiet_iff.mp fun call hcall => hquiet call ?_
  have hentry : call ∈ engine.entryConversions table.outputs candidate.outputs :=
    List.mem_flatMap.mpr ⟨pair, hpair, hcall⟩
  have hresult : call ∈ engine.resultConversions table supplied := by
    rw [resultConversions, hselected]
    exact List.mem_flatMap.mpr ⟨candidate, hcandidate, hentry⟩
  simp only [script, List.mem_append]
  exact Or.inr hresult

/-- Where a table has a report it has one in any order of its rules, and the entries
    of the two agree. -/
theorem exists_report_withRules (hpolicy : table.policy = .unique ∨ table.policy = .any)
    {rules : List Rule} (h : rules.Perm table.rules) {report : Report}
    (hreport : standard.report table supplied = .ok report) :
    ∃ other, standard.report (table.withRules rules h) supplied = .ok other ∧
      List.Forall₂ (RuleResult.Compares table.EntriesAgree) report.result.rules
        other.result.rules := by
  have plain := Table.plain_of_policy hpolicy
  rcases (standard.report_eq_ok_iff table supplied).mp hreport with ⟨hquiet, houtcome⟩
  rw [standard.outcome_of_plain table plain supplied] at houtcome
  cases hselected : standard.selected table supplied with
  | error e =>
      rw [hselected] at houtcome
      exact absurd houtcome nofun
  | ok selected =>
      rw [hselected] at houtcome
      rcases standard.exists_selected_withRules supplied h hpolicy hselected with
        ⟨others, hothers, hagree⟩
      rcases forall₂_results hagree (convert_of_selected standard hquiet hselected) with
        ⟨hconvert, hresults⟩
      refine ⟨standard.reportOf (table.withRules rules h) supplied others, ?_, ?_⟩
      · rw [report_eq_ok_iff, outcome_of_plain _ (table.withRules rules h) plain, hothers]
        exact ⟨standard.quiet_withRules supplied h hpolicy hquiet hothers hconvert, rfl⟩
      · rw [← Except.ok.inj houtcome]
        exact hresults

end Reports

end Engine

/-! ## What the order decides -/

namespace Table

/-- Under UNIQUE and ANY a table has a report in any order of its rules or in none,
    and all of them have as many results. Under UNIQUE the values are the same, and
    under ANY they are what equal outputs are converted to. -/
theorem independentOfOrder_of_policy (table : Table)
    (hpolicy : table.policy = .unique ∨ table.policy = .any) :
    table.IndependentOfOrder table.EntriesAgree := by
  intro rules h supplied
  refine ⟨⟨?_, ?_⟩, ?_⟩
  · rintro ⟨report, hreport⟩
    rcases Engine.exists_report_withRules hpolicy h hreport with ⟨other, hother, _⟩
    exact ⟨other, hother⟩
  · -- The rules of the table are another order of the others.
    rintro ⟨other, hother⟩
    have hback : (table.withRules rules h).withRules table.rules h.symm = table := rfl
    have hsame : (table.withRules rules h).policy = .unique ∨
        (table.withRules rules h).policy = .any := hpolicy
    rcases Engine.exists_report_withRules hsame h.symm hother with ⟨report, hreport, _⟩
    rw [hback] at hreport
    exact ⟨report, hreport⟩
  · intro report other hreport hother
    rcases Engine.exists_report_withRules hpolicy h hreport with ⟨other', hother', hagree⟩
    rw [hother] at hother'
    rw [Except.ok.inj hother']
    exact hagree

end Table

/-! ## Instances -/

/-- Two rules that agree, since the zeros are equal, and a clause that makes texts of
    them. -/
def Draft.signedZero : Draft where
  id := "signed zero"
  outputs := [{ name := "text", typeName := some "string" }]
  rules := [⟨none, [], [⟨"-0.0", none⟩]⟩, ⟨none, [], [⟨"0.0", none⟩]⟩]
  policy := .any

/-- One rule, whose output is converted to a NaN. -/
def Draft.notANumber : Draft where
  id := "not a number"
  outputs := [{ name := "number", typeName := some "double" }]
  rules := [⟨none, [], [⟨"\"NaN\"", none⟩]⟩]

def Table.signedZero : Table := ⟨.signedZero, Draft.valid_of_fault?_eq_none (by decide +kernel)⟩

def Table.notANumber : Table := ⟨.notANumber, Draft.valid_of_fault?_eq_none (by decide +kernel)⟩

/-- A report in which the first of some matching rules counts and has one entry. -/
def Report.ofFirst (matched : List Nat) (name : String) (value : Value) : Report where
  result := ⟨[⟨some 0, none, [(name, value)]⟩]⟩
  matched := matched
  selected := [0]

theorem Table.independentOfOrder_signedZero :
    (signedZero.policy = .unique ∨ signedZero.policy = .any) ∧
      signedZero.IndependentOfOrder signedZero.EntriesAgree := by
  have hpolicy : signedZero.policy = .unique ∨ signedZero.policy = .any := Or.inr rfl
  exact ⟨hpolicy, independentOfOrder_of_policy signedZero hpolicy⟩

/-- The entries of two reports need not have equal values, neither under ANY, where the
    text shows which zero came first, nor under UNIQUE, where a NaN is not equal to
    itself even if the rules stay where they are. -/
theorem Table.not_independentOfOrder_equalEntries :
    (signedZero.policy = .any ∧ ¬ signedZero.IndependentOfOrder EqualEntries) ∧
      (notANumber.policy = .unique ∧ ¬ notANumber.IndependentOfOrder EqualEntries) := by
  refine ⟨⟨rfl, fun hindependent => ?_⟩, ⟨rfl, fun hindependent => ?_⟩⟩
  · have hfirst : Engine.standard.report signedZero ∅ =
        .ok (.ofFirst [0, 1] "text" (.string "-0")) := by decide +kernel
    have hsecond : Engine.standard.report
        (signedZero.withRules signedZero.rules.reverse (List.reverse_perm _)) ∅ =
          .ok (.ofFirst [0, 1] "text" (.string "0")) := by decide +kernel
    have hresults := (hindependent _ (List.reverse_perm _) ∅).2 _ _ hfirst hsecond
    rcases hresults with _ | ⟨hentries, _⟩
    rcases hentries with _ | ⟨hentry, _⟩
    exact absurd hentry.2 (by decide)
  · have hreport : Engine.standard.report notANumber ∅ =
        .ok (.ofFirst [0] "number" (.float (.nan false))) := by decide +kernel
    have hresults := (hindependent notANumber.rules (List.Perm.refl _) ∅).2 _ _ hreport hreport
    rcases hresults with _ | ⟨hentries, _⟩
    rcases hentries with _ | ⟨hentry, _⟩
    exact absurd hentry.2 (by decide +kernel)

end Decision
