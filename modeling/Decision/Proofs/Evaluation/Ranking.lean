import Decision.Proofs.Evaluation.Account

/-!
# Rules in Order of Rank

Which rules count, and in which order, where the outputs decide.

Two policies look at the lists of values that output clauses can have. They give
every rule that matches a vector with a place for each output clause: the place
of its output in the list of the clause, or the length of the list if it is not
there. OUTPUT ORDER lets all rules count in the order of their vectors, and
PRIORITY only the first of them.

The vectors are compared clause by clause, and rules with one vector stay in the
order of the table. The second half rests on the sort being stable, which is
nothing the sorted list shows: `pairwise_mergeSort_stable` brings it into the form
of a pairwise relation, by sorting the items together with their places.

A clause decides between two rules only if the smaller place is one in its list.
So a value that is not listed never comes before one that is, and a clause
without a list decides nothing.

## Main definitions

* `Clause.RanksAs`: The place of a value in the list of a clause.
* `DecidedAt`: A clause decides between two vectors.
* `Precedes`: The order of the rules.
* `Engine.HasRanks`: The vector of a rule.
* `Engine.Ranked`: How a report depends on the vectors.

## Theorems

* `pairwise_mergeSort_stable`: A stable sort in terms of pairs.
* `rank_eq_iff`: The rank of a value is its place.
* `lex_eq_true_iff_decidedAt`: Vectors of one length are compared clause by clause.
* `ranked_of_report`: A report under the two policies is ordered by the vectors.
-/

namespace Decision

open Consultation

/-! ## A stable sort -/

/-- A sorted list is in order, and of two items that the order does not tell apart
    the first one stood before the second. -/
theorem pairwise_mergeSort_stable {α : Type} {le : α → α → Bool} {before : α → α → Prop}
    {l : List α} (trans : ∀ a b c, le a b = true → le b c = true → le a c = true)
    (total : ∀ a b, (le a b || le b a) = true) (h : l.Pairwise before) :
    (l.mergeSort le).Pairwise fun a b => le a b = true ∧ (le b a = true → before a b) := by
  have hperm := List.mergeSort_perm l.zipIdx (List.zipIdxLE le)
  have hsorted := List.pairwise_mergeSort (List.zipIdxLE_trans trans)
    (List.zipIdxLE_total total) l.zipIdx
  -- No two items have one place, so items that are not told apart are in order of place.
  have hplaces : ((l.zipIdx.mergeSort (List.zipIdxLE le)).map Prod.snd).Nodup := by
    rw [(hperm.map Prod.snd).nodup_iff, List.zipIdx_map_snd]
    exact List.nodup_range'
  rw [← List.mergeSort_zipIdx, List.pairwise_map]
  refine (hsorted.and (List.pairwise_map.mp hplaces)).imp_of_mem ?_
  rintro ⟨a, i⟩ ⟨b, j⟩ ha hb ⟨hle, hne⟩
  have hai : l[i]? = some a := List.mem_zipIdx_iff_getElem?.mp (hperm.mem_iff.mp ha)
  have hbj : l[j]? = some b := List.mem_zipIdx_iff_getElem?.mp (hperm.mem_iff.mp hb)
  unfold List.zipIdxLE at hle
  by_cases hab : le a b = true
  · refine ⟨hab, fun hba => ?_⟩
    simp only [hab, hba, if_true, decide_eq_true_eq] at hle
    rcases List.getElem?_eq_some_iff.mp hai with ⟨hi, rfl⟩
    rcases List.getElem?_eq_some_iff.mp hbj with ⟨hj, rfl⟩
    exact List.pairwise_iff_getElem.mp h i j hi hj (by simp only at hne; omega)
  · rw [if_neg hab] at hle
    cases hle

/-! ## Places -/

/-- The place of a value in the list of a clause: that of the first listed value that
    equals it, or after all of them if there is none. -/
def Clause.RanksAs {role : Role} (clause : Clause role) (value : Value) (place : Nat) : Prop :=
  (∃ listed, clause.values[place]? = some listed ∧ (listed == value) = true ∧
    ∀ earlier ∈ clause.values.take place, (earlier == value) = false) ∨
  (place = clause.values.length ∧ ∀ listed ∈ clause.values, (listed == value) = false)

/-- A value is in the list of a clause, or one that equals it. -/
def Clause.Lists {role : Role} (clause : Clause role) (value : Value) : Prop :=
  ∃ listed ∈ clause.values, (listed == value) = true

namespace Clause

variable {role : Role} {clause : Clause role} {value : Value} {place : Nat}

theorem rank_le_length : clause.rank value ≤ clause.values.length := List.findIdx_le_length

/-- The rank of a value is its place. -/
theorem rank_eq_iff : clause.rank value = place ↔ clause.RanksAs value place := by
  unfold RanksAs
  constructor
  · rintro rfl
    by_cases hlisted : clause.rank value < clause.values.length
    · refine Or.inl ⟨_, List.getElem?_eq_getElem hlisted, List.findIdx_getElem (w := hlisted), ?_⟩
      intro earlier hearlier
      rcases List.mem_take_iff_getElem.mp hearlier with ⟨i, hi, rfl⟩
      have hlt : i < clause.rank value := Nat.lt_of_lt_of_le hi (Nat.min_le_left _ _)
      exact List.not_of_lt_findIdx hlt
    · -- The search runs to the end of the list if it finds nothing.
      have hend : clause.rank value = clause.values.length :=
        Nat.le_antisymm rank_le_length (Nat.le_of_not_lt hlisted)
      exact Or.inr ⟨hend, List.findIdx_eq_length.mp hend⟩
  · rintro (⟨listed, hplace, hequal, hbefore⟩ | ⟨rfl, hnone⟩)
    · rcases List.getElem?_eq_some_iff.mp hplace with ⟨hlt, rfl⟩
      refine (List.findIdx_eq hlt).mpr ⟨hequal, fun i hi => hbefore _ ?_⟩
      exact List.mem_take_iff_getElem.mpr ⟨i, by omega, rfl⟩
    · exact List.findIdx_eq_length.mpr hnone

/-- A place before the end of the list is that of a value in it. -/
theorem lists_of_ranksAs (h : clause.RanksAs value place) (hlt : place < clause.values.length) :
    clause.Lists value := by
  rcases h with ⟨listed, hplace, hequal, -⟩ | ⟨hend, -⟩
  · exact ⟨listed, List.mem_of_getElem? hplace, hequal⟩
  · exact absurd hlt (by omega)

theorem le_length_of_ranksAs (h : clause.RanksAs value place) : place ≤ clause.values.length := by
  rw [← rank_eq_iff.mpr h]
  exact rank_le_length

end Clause

/-! ## Vectors -/

/-- A clause decides between two vectors: it is the first in which they differ, and
    there the one is smaller. -/
def DecidedAt (clause : Nat) (one other : List Nat) : Prop :=
  (∀ earlier < clause, one[earlier]? = other[earlier]?) ∧
    ∃ a b, one[clause]? = some a ∧ other[clause]? = some b ∧ a < b

/-- A rule precedes another if a clause decides for it, or if none decides and it
    stands before the other in the table. -/
def Precedes (ranks : Nat → List Nat) (rule other : Nat) : Prop :=
  (∃ clause, DecidedAt clause (ranks rule) (ranks other)) ∨
    (ranks rule = ranks other ∧ rule < other)

/-- Vectors of one length are compared clause by clause. -/
theorem lex_eq_true_iff_decidedAt {one other : List Nat} (h : one.length = other.length) :
    one.lex other = true ↔ ∃ clause, DecidedAt clause one other := by
  rw [List.lex_eq_true_iff_exists]
  constructor
  · rintro (⟨_, hshorter⟩ | ⟨clause, hone, hother, hearlier, hless⟩)
    · exact absurd h (Nat.ne_of_lt hshorter)
    · refine ⟨clause, fun earlier hlt => ?_, one[clause], other[clause],
        List.getElem?_eq_getElem hone, List.getElem?_eq_getElem hother, of_decide_eq_true hless⟩
      have hsame := eq_of_beq (hearlier earlier hlt)
      rw [List.getElem?_eq_getElem (by omega), List.getElem?_eq_getElem (by omega), hsame]
  · rintro ⟨clause, hearlier, a, b, ha, hb, hless⟩
    rcases List.getElem?_eq_some_iff.mp ha with ⟨hone, rfl⟩
    rcases List.getElem?_eq_some_iff.mp hb with ⟨hother, rfl⟩
    refine Or.inr ⟨clause, hone, hother, fun earlier hlt => ?_, decide_eq_true hless⟩
    have hsame := hearlier earlier hlt
    rw [List.getElem?_eq_getElem (by omega), List.getElem?_eq_getElem (by omega),
      Option.some.injEq] at hsame
    exact beq_iff_eq.mpr hsame

/-- Vectors that come one before the other and before a third are in order. -/
theorem lex_eq_false_trans {a b c : List Nat} (hab : b.lex a = false) (hbc : c.lex b = false) :
    c.lex a = false :=
  List.lex_eq_false_iff_ge.mpr
    (List.le_trans (List.lex_eq_false_iff_ge.mp hab) (List.lex_eq_false_iff_ge.mp hbc))

theorem lex_eq_false_or (a b : List Nat) : a.lex b = false ∨ b.lex a = false :=
  (List.le_total b a).imp List.lex_eq_false_iff_ge.mpr List.lex_eq_false_iff_ge.mpr

theorem eq_of_lex_eq_false {a b : List Nat} (hab : a.lex b = false) (hba : b.lex a = false) :
    a = b :=
  List.le_antisymm (List.lex_eq_false_iff_ge.mp hba) (List.lex_eq_false_iff_ge.mp hab)

namespace Candidate

variable {clauses : List (Clause .output)} {candidates : List Candidate}

/-- Ranked candidates are in order of their vectors, and those of one vector in the
    order in which they come. -/
theorem pairwise_byRank {before : Candidate → Candidate → Prop} (h : candidates.Pairwise before) :
    (byRank clauses candidates).Pairwise fun a b =>
      (b.rank clauses).lex (a.rank clauses) = false ∧
        ((a.rank clauses).lex (b.rank clauses) = false → before a b) := by
  let le := fun a b : Candidate => !(b.rank clauses).lex (a.rank clauses)
  have trans : ∀ a b c, le a b = true → le b c = true → le a c = true := by
    intro a b c hab hbc
    rw [Bool.not_eq_true'] at hab hbc ⊢
    exact lex_eq_false_trans hab hbc
  have total : ∀ a b, (le a b || le b a) = true := by
    intro a b
    rw [Bool.or_eq_true, Bool.not_eq_true', Bool.not_eq_true']
    exact lex_eq_false_or _ _
  have hsorted := pairwise_mergeSort_stable trans total h
  simpa only [le, byRank, Bool.not_eq_true'] using hsorted

end Candidate

/-! ## Reports -/

namespace Engine

variable (engine : Engine) (table : Table) (supplied : Variables)

/-- An output of a rule: what its cell under an output clause produces. -/
def Produces (index place : Nat) (value : Value) : Prop :=
  ∃ rule cell, table.rules[index]? = some rule ∧ rule.outputs[place]? = some cell ∧
    engine.evaluator.output cell (engine.context table.inputs supplied) = .ok value

/-- The vector of a rule has the place of its output for every output clause. -/
structure HasRanks (index : Nat) (ranks : List Nat) : Prop where
  length_eq : ranks.length = table.outputs.length
  ranksAs : ∀ place clause, table.outputs[place]? = some clause →
    ∃ value rank, engine.Produces table supplied index place value ∧
      ranks[place]? = some rank ∧ clause.RanksAs value rank

/-- How a report depends on the vectors of the rules that match. -/
structure Ranked (ranks : Nat → List Nat) (report : Report) : Prop where
  context_eq : (Context.ofInputs table.inputs supplied).run engine.reply =
    .ok (engine.context table.inputs supplied)
  hasRanks : ∀ index ∈ report.matched, engine.HasRanks table supplied index (ranks index)
  /-- Under OUTPUT ORDER every rule that matches counts once, in order. -/
  ordered : table.policy = .outputOrder →
    report.selected.Nodup ∧ (∀ index, index ∈ report.selected ↔ index ∈ report.matched) ∧
      report.selected.Pairwise (Precedes ranks)
  /-- Under PRIORITY the rule counts that precedes all others. -/
  none_of_none : table.policy = .priority → report.matched = [] → report.selected = []
  first_of_some : table.policy = .priority → report.matched ≠ [] →
    ∃ first ∈ report.matched, report.selected = [first] ∧
      ∀ other ∈ report.matched, other ≠ first → Precedes ranks first other
  /-- A clause decides for a rule only by a value in its list. -/
  lists_of_decidedAt : ∀ index ∈ report.matched, ∀ other ∈ report.matched, ∀ place,
    DecidedAt place (ranks index) (ranks other) →
      ∃ clause value, table.outputs[place]? = some clause ∧
        engine.Produces table supplied index place value ∧ clause.Lists value

/-- The vector of the rule at some place. -/
def ranks (index : Nat) : List Nat :=
  match table.rules[index]? with
  | some rule =>
      (engine.candidate (engine.context table.inputs supplied) ⟨index, rule⟩).rank table.outputs
  | none => []

/-- The places of the rules that match, in the order of their vectors. -/
def ranking : List Nat :=
  (Candidate.byRank table.outputs (engine.allCandidates table supplied)).map
    fun candidate => candidate.row.index

variable {engine table supplied}

/-- A rule of a table has the rank of its outputs. -/
theorem ranks_eq_rank {row : Row} (hrow : row ∈ table.rows) :
    engine.ranks table supplied row.index =
      (engine.candidate (engine.context table.inputs supplied) row).rank table.outputs := by
  rw [ranks, Row.mem_listFrom_iff.mp hrow]

theorem length_ranks {row : Row} (hrow : row ∈ table.rows) :
    (engine.ranks table supplied row.index).length = table.outputs.length := by
  rw [ranks_eq_rank hrow, Candidate.rank, List.length_zipWith, length_outputs_candidate _ hrow,
    Nat.min_self]

/-- The vector of a rule that the policy looks at has the places of its outputs. -/
theorem hasRanks_of_quiet
    (hquiet : ∀ call ∈ engine.script table supplied, call.refusedBy engine.reply = false)
    {row : Row} (hrow : row ∈ table.policy.considered (engine.matched table supplied)) :
    engine.HasRanks table supplied row.index (engine.ranks table supplied row.index) := by
  have hmem : row ∈ table.rows := (List.mem_filter.mp (HitPolicy.mem_of_mem_considered hrow)).1
  refine ⟨length_ranks hmem, fun place clause hclause => ?_⟩
  have hcells : row.rule.outputs.length = table.outputs.length :=
    table.valid.outputs_length _ (Row.rule_mem_of_mem_listFrom hmem)
  rcases List.getElem?_eq_some_iff.mp hclause with ⟨hlt, _⟩
  have hcell : row.rule.outputs[place]? = some row.rule.outputs[place] :=
    List.getElem?_eq_getElem (by omega)
  have houtput := output_of_quiet hquiet hrow (List.mem_of_getElem? hcell)
  -- The vector pairs every clause with the output that stands under it.
  refine ⟨_, _, ⟨row.rule, _, Row.mem_listFrom_iff.mp hmem, hcell, houtput⟩, ?_,
    Clause.rank_eq_iff.mp rfl⟩
  rw [ranks_eq_rank hmem, Candidate.rank, candidate, List.getElem?_zipWith, hclause,
    List.getElem?_map, hcell]
  rfl

/-- The ranked rules are in the order of their vectors. -/
theorem pairwise_ranking :
    (engine.ranking table supplied).Pairwise (Precedes (engine.ranks table supplied)) := by
  rw [ranking, List.pairwise_map]
  have hplaces : (engine.allCandidates table supplied).Pairwise
      fun a b => a.row.index < b.row.index := by
    rw [allCandidates, List.pairwise_map]
    exact List.pairwise_map.mp pairwise_index_matched
  have hrow : ∀ candidate ∈ Candidate.byRank table.outputs (engine.allCandidates table supplied),
      ∃ row ∈ table.rows,
        engine.candidate (engine.context table.inputs supplied) row = candidate := by
    intro candidate hcandidate
    rcases List.mem_map.mp ((HitPolicy.byRank_perm _ _).mem_iff.mp hcandidate) with
      ⟨row, hmatched, heq⟩
    exact ⟨row, (List.mem_filter.mp hmatched).1, heq⟩
  refine (Candidate.pairwise_byRank hplaces).imp_of_mem ?_
  intro a b ha hb hab
  rcases hrow a ha with ⟨one, hone, rfl⟩
  rcases hrow b hb with ⟨other, hother, rfl⟩
  have hlength : (engine.ranks table supplied one.index).length =
      (engine.ranks table supplied other.index).length :=
    (length_ranks hone).trans (length_ranks hother).symm
  rw [← ranks_eq_rank hone, ← ranks_eq_rank hother] at hab
  -- Either some clause tells the two vectors apart, or they are the same.
  by_cases hless :
      (engine.ranks table supplied one.index).lex (engine.ranks table supplied other.index) = true
  · exact Or.inl ((lex_eq_true_iff_decidedAt hlength).mp hless)
  · have hnot := Bool.eq_false_iff.mpr hless
    exact Or.inr ⟨eq_of_lex_eq_false hnot hab.1, hab.2 hnot⟩

/-- The ranked rules are those that match. -/
theorem ranking_perm :
    (engine.ranking table supplied).Perm ((engine.matched table supplied).map Row.index) := by
  have hindex : (engine.allCandidates table supplied).map (fun candidate => candidate.row.index) =
      (engine.matched table supplied).map Row.index := by
    rw [allCandidates, List.map_map]
    rfl
  rw [← hindex]
  exact (HitPolicy.byRank_perm _ _).map _

/-- A clause that decides for a rule has its output in the list. -/
theorem lists_of_decidedAt {index other : Nat} {ranks : Nat → List Nat}
    (hindex : engine.HasRanks table supplied index (ranks index))
    (hother : engine.HasRanks table supplied other (ranks other)) {place : Nat}
    (h : DecidedAt place (ranks index) (ranks other)) :
    ∃ clause value, table.outputs[place]? = some clause ∧
      engine.Produces table supplied index place value ∧ clause.Lists value := by
  rcases h with ⟨-, a, b, ha, hb, hless⟩
  rcases List.getElem?_eq_some_iff.mp ha with ⟨hlt, -⟩
  rw [hindex.length_eq] at hlt
  have hclause : table.outputs[place]? = some table.outputs[place] := List.getElem?_eq_getElem hlt
  rcases hindex.ranksAs place _ hclause with ⟨value, rank, hvalue, hrank, hranks⟩
  rcases hother.ranksAs place _ hclause with ⟨value', rank', -, hrank', hranks'⟩
  rw [ha, Option.some.injEq] at hrank
  rw [hb, Option.some.injEq] at hrank'
  -- The larger place is at most the length of the list.
  have hend := Clause.le_length_of_ranksAs hranks'
  exact ⟨_, value, hclause, hvalue, Clause.lists_of_ranksAs hranks (by omega)⟩

section Selected

variable {selected : List Candidate} (h : engine.selected table supplied = .ok selected)

include h

theorem index_eq_ranking (hpolicy : table.policy = .outputOrder) :
    (selected.map fun candidate => candidate.row.index) = engine.ranking table supplied := by
  rw [Engine.selected, candidates, hpolicy] at h
  rw [← Except.ok.inj h]
  rfl

theorem index_eq_take_ranking (hpolicy : table.policy = .priority) :
    (selected.map fun candidate => candidate.row.index) =
      (engine.ranking table supplied).take 1 := by
  rw [Engine.selected, candidates, hpolicy] at h
  rw [← Except.ok.inj h, List.map_take]
  rfl

/-- Under PRIORITY the first of the ranked rules counts, and it precedes all others. -/
theorem first_of_priority (hpolicy : table.policy = .priority)
    (hsome : (engine.matched table supplied).map Row.index ≠ []) :
    ∃ first ∈ (engine.matched table supplied).map Row.index,
      (selected.map fun candidate => candidate.row.index) = [first] ∧
        ∀ other ∈ (engine.matched table supplied).map Row.index, other ≠ first →
          Precedes (engine.ranks table supplied) first other := by
  have hpairs : (engine.ranking table supplied).Pairwise
      (Precedes (engine.ranks table supplied)) := pairwise_ranking
  have hperm : (engine.ranking table supplied).Perm
      ((engine.matched table supplied).map Row.index) := ranking_perm
  rw [index_eq_take_ranking h hpolicy]
  cases hplaces : engine.ranking table supplied with
  | nil =>
      rw [hplaces] at hperm
      exact absurd hperm.symm.eq_nil hsome
  | cons first rest =>
      rw [hplaces] at hpairs hperm
      refine ⟨first, hperm.mem_iff.mp List.mem_cons_self, rfl, fun other hother hne => ?_⟩
      rcases List.mem_cons.mp (hperm.mem_iff.mpr hother) with heq | hrest
      · exact absurd heq hne
      · exact (List.pairwise_cons.mp hpairs).1 other hrest

end Selected

/-- Under the two policies that rank, a report is ordered by the vectors of the rules
    that match. -/
theorem ranked_of_report (hpolicy : table.policy = .outputOrder ∨ table.policy = .priority)
    {report : Report} (h : engine.report table supplied = .ok report) :
    ∃ ranks, engine.Ranked table supplied ranks report := by
  rcases (engine.report_eq_ok_iff table supplied).mp h with ⟨hquiet, houtcome⟩
  rcases (engine.outcome_eq_ok_iff table supplied).mp houtcome with
    ⟨selected, hselected, -, hmatched, hplaces⟩
  -- Both policies look at the outputs of all rules that match, so all of them have ranks.
  have hconsidered : table.policy.considered (engine.matched table supplied) =
      engine.matched table supplied := by
    rcases hpolicy with hpolicy | hpolicy <;> rw [hpolicy] <;> rfl
  have hranks : ∀ index ∈ report.matched,
      engine.HasRanks table supplied index (engine.ranks table supplied index) := by
    intro index hindex
    rw [hmatched] at hindex
    rcases List.mem_map.mp hindex with ⟨row, hrow, rfl⟩
    rw [← hconsidered] at hrow
    exact hasRanks_of_quiet hquiet hrow
  exact ⟨engine.ranks table supplied, {
    context_eq := (accounts_of_report h).context_eq
    hasRanks := hranks
    ordered := by
      intro houtput
      rw [hplaces, hmatched]
      refine ⟨nodup_index_selected hselected, fun index =>
        (index_perm_matched hselected houtput).mem_iff, ?_⟩
      rw [index_eq_ranking hselected houtput]
      exact pairwise_ranking
    none_of_none := by
      intro _ hnone
      have hsubperm := index_subperm_matched hselected
      rw [← hplaces, ← hmatched, hnone] at hsubperm
      exact List.subperm_nil.mp hsubperm
    first_of_some := by
      intro hpriority hsome
      rw [hmatched] at hsome ⊢
      rw [hplaces]
      exact first_of_priority hselected hpriority hsome
    lists_of_decidedAt := fun index hindex other hother place hdecided =>
      lists_of_decidedAt (hranks index hindex) (hranks other hother) hdecided
  }⟩

end Engine

/-! ## An instance -/

/-- A rule that always matches, with a size and a code. -/
def Rule.sized (size code : String) : Rule := ⟨none, [], [⟨size, none⟩, ⟨code, none⟩]⟩

/-- Three rules, the first of which has a size that is not listed. The others have one
    vector, because the second clause has no list. -/
def Draft.threeSizes : Draft where
  id := "three sizes"
  outputs := [{ name := "size", values := [.int 2, .int 1, .int 2] }, { name := "code" }]
  rules := [.sized "3" "1", .sized "1" "5", .sized "1" "4"]

def Table.threeSizes : Table := ⟨.threeSizes, Draft.valid_of_fault?_eq_none (by decide +kernel)⟩

/-- The results of the rules, in the order of the table. -/
def RuleResult.threeSizes : List RuleResult :=
  [⟨some 0, none, [("size", .int 3), ("code", .int 1)]⟩,
    ⟨some 1, none, [("size", .int 1), ("code", .int 5)]⟩,
    ⟨some 2, none, [("size", .int 1), ("code", .int 4)]⟩]

/-- The rules in the order of their vectors. -/
def Report.threeSizes : Report where
  result := ⟨RuleResult.threeSizes.drop 1 ++ RuleResult.threeSizes.take 1⟩
  matched := [0, 1, 2]
  selected := [1, 2, 0]

theorem Engine.ranked_threeSizes :
    let table := Table.threeSizes.withPolicy rfl .outputOrder
    (table.policy = .outputOrder ∨ table.policy = .priority) ∧
      standard.report table ∅ = .ok .threeSizes ∧
      ∃ ranks, standard.Ranked table ∅ ranks .threeSizes := by
  intro table
  have hcollect : standard.report (Table.threeSizes.withPolicy rfl .collect) ∅ =
      .ok ⟨⟨RuleResult.threeSizes⟩, [0, 1, 2], [0, 1, 2]⟩ := by decide +kernel
  let candidate (index : Nat) (size code : String) : Candidate :=
    standard.candidate (standard.context [] ∅) ⟨index, .sized size code⟩
  have hcandidates : standard.allCandidates .threeSizes ∅ =
      [candidate 0 "3" "1", candidate 1 "1" "5", candidate 2 "1" "4"] := by
    have hmatched : standard.matched .threeSizes ∅ = Table.threeSizes.rows := by decide +kernel
    rw [allCandidates, hmatched]
    rfl
  have hunlisted : (candidate 0 "3" "1").rank Table.threeSizes.outputs = [3, 0] := by
    decide +kernel
  have hfirst : (candidate 1 "1" "5").rank Table.threeSizes.outputs = [1, 0] := by decide +kernel
  have hsecond : (candidate 2 "1" "4").rank Table.threeSizes.outputs = [1, 0] := by decide +kernel
  -- The sort is not computed by the kernel, so it is written out for three candidates.
  have hranked : Candidate.byRank Table.threeSizes.outputs (standard.allCandidates .threeSizes ∅) =
      [candidate 1 "1" "5", candidate 2 "1" "4", candidate 0 "3" "1"] := by
    rw [hcandidates]
    simp [Candidate.byRank, List.mergeSort, hunlisted, hfirst, hsecond]
  have hreport : standard.report table ∅ = .ok .threeSizes := by
    rw [report_withPolicy hcollect .outputOrder]
    show Except.ok (standard.reportOf .threeSizes ∅
      (Candidate.byRank Table.threeSizes.outputs (standard.allCandidates .threeSizes ∅))) = _
    rw [hranked]
    decide +kernel
  exact ⟨Or.inl rfl, hreport, ranked_of_report (Or.inl rfl) hreport⟩

end Decision
