import Decision.Proofs.Evaluation.Account
import Decision.Proofs.Evaluation.Conclusion
import Mathlib.Data.List.Perm.Basic
import Mathlib.Data.List.Nodup

/-!
# The Order of the Input Columns

What the order of the input columns decides.

The columns of a table are numbered, and a cell belongs to its clause because the
two have the same number. If the clauses are put in another order, and the cells
of every rule along with them, then every cell still meets its clause. The
clauses are bound one after the other, but to names of their own, so in the end
everybody is bound to the same value. And a rule matches if all its cells hold,
which has no order either.

What does have an order is how a rule fails to match. It is left at its first
cell that does not hold, and an error behind that cell is never found. In another
order the error may come first. So the order of the columns can decide between a
result and an error, or between two errors, but it cannot do so unless one of the
two evaluations fails before the rules that match are known. Otherwise the same
rules match, and what follows does not look at input columns.

An order is given as the list of the old places, so `[2, 0, 1]` puts the last of
three columns first.

## Main definitions

* `rearranged`: A list in another order.
* `Table.withColumns`: A table with its input columns in another order.
* `Engine.CompletesMatching`: Neither an input nor a condition fails.

## Theorems

* `rearranged_perm`: Nothing is lost in another order, and nothing is doubled.
* `zip_rearranged`: What belongs together stays together.
* `run_allHold_eq_true_iff`: A rule matches if every value passes its cell.
* `context_perm`: The clauses are bound to the same values.
* `matching_rearranged`: The same rules match.
* `report_withColumns`: The outcome is the same.
-/

namespace Decision

open Consultation

/-! ## Lists in another order -/

section Lists

variable {α β : Type} {places : List Nat} {items : List α}

/-- The items at some places, in the order of the places. -/
def rearranged (places : List Nat) (items : List α) : List α :=
  places.filterMap fun place => items[place]?

/-- The items at all places, from the first to the last. -/
theorem rearranged_range (items : List α) : rearranged (List.range items.length) items = items := by
  unfold rearranged
  induction items with
  | nil => rfl
  | cons item items ih =>
      have hhead : (item :: items)[0]? = some item := rfl
      rw [List.length_cons, List.range_succ_eq_map, List.filterMap_cons_some hhead,
        List.filterMap_map]
      exact congrArg (item :: ·) ih

/-- Nothing is lost in another order, and nothing is doubled. -/
theorem rearranged_perm (h : places.Perm (List.range items.length)) :
    (rearranged places items).Perm items := by
  have hperm := h.filterMap fun place => items[place]?
  rw [show (List.range items.length).filterMap (fun place => items[place]?) = items from
    rearranged_range items] at hperm
  exact hperm

/-- What belongs together stays together. -/
theorem zip_rearranged {others : List β} (h : items.length = others.length)
    (places : List Nat) :
    (rearranged places items).zip (rearranged places others) =
      rearranged places (items.zip others) := by
  induction places with
  | nil => rfl
  | cons place places ih =>
      unfold rearranged at ih ⊢
      by_cases hplace : place < items.length
      · have hother : place < others.length := h ▸ hplace
        have hpair : (items.zip others)[place]? = some (items[place], others[place]) := by
          rw [List.getElem?_zip_eq_some, List.getElem?_eq_getElem hplace,
            List.getElem?_eq_getElem hother]
          exact ⟨rfl, rfl⟩
        rw [List.filterMap_cons_some (List.getElem?_eq_getElem hplace),
          List.filterMap_cons_some (List.getElem?_eq_getElem hother),
          List.filterMap_cons_some hpair, List.zip_cons_cons, ih]
      · -- There is nothing at this place, in any of the lists.
        have hitems : items[place]? = none := List.getElem?_eq_none (Nat.not_lt.mp hplace)
        have hothers : others[place]? = none :=
          List.getElem?_eq_none (by rw [← h]; exact Nat.not_lt.mp hplace)
        have hpairs : (items.zip others)[place]? = none :=
          List.getElem?_eq_none (by rw [List.length_zip]; omega)
        rw [List.filterMap_cons_none hitems, List.filterMap_cons_none hothers,
          List.filterMap_cons_none hpairs, ih]

end Lists

/-! ## Tables in another order -/

/-- The rule with its input cells in another order. -/
def Rule.withColumns (places : List Nat) (rule : Rule) : Rule :=
  { rule with inputs := rearranged places rule.inputs }

def Row.withColumns (places : List Nat) (row : Row) : Row :=
  { row with rule := row.rule.withColumns places }

theorem Row.keeps_withColumns (places : List Nat) : Row.Keeps (withColumns places) :=
  ⟨fun _ => rfl, fun _ => rfl, fun _ => rfl⟩

/-- The table with its input columns in another order: its clauses, and with them the
    input cells of every rule. -/
def Table.withColumns (table : Table) (places : List Nat)
    (h : places.Perm (List.range table.inputs.length)) : Table where
  toDraft := { table.toDraft with
    inputs := rearranged places table.inputs
    rules := table.rules.map (Rule.withColumns places) }
  valid := {
    inputs_nodup := by
      rw [((rearranged_perm h).map Clause.name).nodup_iff]
      exact table.valid.inputs_nodup
    outputs_nodup := table.valid.outputs_nodup
    outputs_ne_nil := table.valid.outputs_ne_nil
    inputs_length := by
      intro rule hrule
      rcases List.mem_map.mp hrule with ⟨old, hold, rfl⟩
      have hlength := table.valid.inputs_length old hold
      have hcells : places.Perm (List.range old.inputs.length) := hlength ▸ h
      exact ((rearranged_perm hcells).length_eq.trans hlength).trans
        (rearranged_perm h).length_eq.symm
    outputs_length := by
      intro rule hrule
      rcases List.mem_map.mp hrule with ⟨old, hold, rfl⟩
      exact table.valid.outputs_length old hold
    collects := table.valid.collects
    single_output := table.valid.single_output
  }

namespace Engine

variable {engine : Engine}

/-- An evaluation gets as far as to know which rules match: no input fails to be
    converted, and no condition that is asked for fails. -/
def CompletesMatching (engine : Engine) (table : Table) (supplied : Variables) : Prop :=
  ∃ context matched, (Context.ofInputs table.inputs supplied).run engine.reply = .ok context ∧
    (Row.matching table.inputs context table.rows).run engine.reply = .ok matched

/-! ## Binding -/

/-- Clauses with names of their own are bound to the same values in any order. -/
theorem context_perm {first second : List (Clause .input)} (h : first.Perm second)
    (hnodup : (first.map Clause.name).Nodup) (supplied : Variables) :
    engine.context first supplied = engine.context second supplied := by
  refine h.foldl_eq' (fun one hone other hother context => ?_)
    (Context.ofVariables supplied)
  by_cases hname : one.name = other.name
  · rw [List.inj_on_of_nodup_map hnodup hone hother hname]
  · -- Bindings under two names do not touch one another.
    simp only [Context.bind, Context.mk.injEq, and_true]
    refine Std.ExtTreeMap.ext_getElem? fun name => ?_
    simp only [Std.ExtTreeMap.getElem?_insert, Std.compare_eq_iff_eq]
    by_cases hfirst : one.name = name
    · rw [if_pos hfirst, if_neg (fun hsecond => hname (hfirst.trans hsecond.symm)), if_pos hfirst]
    · rw [if_neg hfirst, if_neg hfirst]

/-! ## Matching -/

/-- The cells of a rule are found to hold exactly if every value passes its cell. -/
theorem run_allHold_eq_true_iff {context : Context} {clauses : List (Clause .input)}
    {entries : List InputEntry} :
    (InputEntry.allHold context clauses entries).run engine.reply = .ok true ↔
      ∀ pair ∈ clauses.zip entries,
        pair.2.Passes engine context (context.input pair.1.name) := by
  induction clauses generalizing entries with
  | nil => exact iff_of_true (run_allHold_nil context entries) (List.forall_mem_nil _)
  | cons clause clauses ih =>
      cases entries with
      | nil => exact iff_of_true (run_allHold_nil_right context _) (List.forall_mem_nil _)
      | cons entry entries =>
          rw [List.zip_cons_cons, List.forall_mem_cons, ← ih]
          cases entry with
          | any =>
              rw [run_allHold_any]
              exact (and_iff_right trivial).symm
          | test cell =>
              rw [run_allHold_test, InputEntry.passes_test_iff]
              rcases engine.evaluator.condition cell (context.input clause.name) context with
                reason | _ | _
              · simp only [reduceCtorEq, false_and]
              · simp only [Except.ok.injEq, Bool.false_eq_true, false_and]
              · simp only [true_and]

/-- A rule whose cells are found to hold or not to hold in one order is found so in
    another, unless a condition fails. -/
theorem allHold_rearranged {places : List Nat} {inputs : List (Clause .input)}
    {context : Context} {entries : List InputEntry}
    (h : places.Perm (List.range inputs.length)) (hlength : entries.length = inputs.length)
    {holds holds' : Bool}
    (hfirst : (InputEntry.allHold context inputs entries).run engine.reply = .ok holds)
    (hsecond : (InputEntry.allHold context (rearranged places inputs)
      (rearranged places entries)).run engine.reply = .ok holds') :
    holds' = holds := by
  have hpairs : ((rearranged places inputs).zip (rearranged places entries)).Perm
      (inputs.zip entries) := by
    rw [zip_rearranged hlength.symm]
    refine rearranged_perm ?_
    rw [List.length_zip, hlength, Nat.min_self]
    exact h
  -- The same cells are passed, so the two orders agree on the answer "true".
  have htrue : holds' = true ↔ holds = true := by
    have hone : (InputEntry.allHold context inputs entries).run engine.reply = .ok true ↔
        holds = true := by rw [hfirst, Except.ok.injEq]
    have hother : (InputEntry.allHold context (rearranged places inputs)
        (rearranged places entries)).run engine.reply = .ok true ↔ holds' = true := by
      rw [hsecond, Except.ok.injEq]
    rw [← hone, ← hother, run_allHold_eq_true_iff, run_allHold_eq_true_iff]
    exact forall_congr' fun pair => by rw [hpairs.mem_iff]
  exact Bool.eq_iff_iff.mpr htrue

/-- The same rules match in another order of the columns, unless a condition fails. -/
theorem matching_rearranged {places : List Nat} {inputs : List (Clause .input)}
    {context : Context} {rows matched others : List Row}
    (h : places.Perm (List.range inputs.length))
    (hlength : ∀ row ∈ rows, row.rule.inputs.length = inputs.length)
    (hfirst : (Row.matching inputs context rows).run engine.reply = .ok matched)
    (hsecond : (Row.matching (rearranged places inputs) context
      (rows.map (Row.withColumns places))).run engine.reply = .ok others) :
    others = matched.map (Row.withColumns places) := by
  induction rows generalizing matched others with
  | nil =>
      rw [← Except.ok.inj hfirst, ← Except.ok.inj hsecond]
      rfl
  | cons row rows ih =>
      rw [List.forall_mem_cons] at hlength
      simp only [List.map_cons, Row.matching, run_bind] at hfirst hsecond
      rcases bind_eq_ok_iff.mp hfirst with ⟨holds, hholds, hfirst⟩
      rcases bind_eq_ok_iff.mp hfirst with ⟨rest, hrest, hmatched⟩
      rcases bind_eq_ok_iff.mp hsecond with ⟨holds', hholds', hsecond⟩
      rcases bind_eq_ok_iff.mp hsecond with ⟨rest', hrest', hothers⟩
      rw [← Except.ok.inj hmatched, ← Except.ok.inj hothers,
        allHold_rearranged h hlength.1 hholds hholds', ih hlength.2 hrest hrest']
      cases holds <;> rfl

/-! ## Reports -/

/-- The input columns may stand in any order: if neither evaluation fails before the
    rules that match are known, both have one outcome, be it a report or an error. -/
theorem report_withColumns (table : Table) {places : List Nat}
    (h : places.Perm (List.range table.inputs.length)) {supplied : Variables}
    (hfirst : engine.CompletesMatching table supplied)
    (hsecond : engine.CompletesMatching (table.withColumns places h) supplied) :
    engine.report (table.withColumns places h) supplied = engine.report table supplied := by
  rcases hfirst with ⟨context, matched, hcontext, hmatched⟩
  rcases hsecond with ⟨context', others, hcontext', hothers⟩
  have hsame : context' = context := by
    rw [engine.eq_context_of_run hcontext, engine.eq_context_of_run hcontext']
    exact context_perm (rearranged_perm h) (table.withColumns places h).valid.inputs_nodup supplied
  have hlength : ∀ row ∈ table.rows, row.rule.inputs.length = table.inputs.length :=
    fun row hrow => table.valid.inputs_length _ (Row.rule_mem_of_mem_listFrom hrow)
  have hrows : (table.withColumns places h).rows = table.rows.map (Row.withColumns places) :=
    Row.listFrom_map (Rule.withColumns places) 0 table.rules
  rw [hsame] at hcontext' hothers
  have hmatching := hothers
  rw [hrows] at hmatching
  have hexchanged := matching_rearranged h hlength hmatched hmatching
  -- From here on the two evaluations are in the same position.
  rw [run_report_concluded, run_report_concluded, hcontext, hcontext']
  show ((Row.matching _ context (table.withColumns places h).rows).run engine.reply >>= _) =
    ((Row.matching _ context table.rows).run engine.reply >>= _)
  rw [hmatched, hothers, hexchanged]
  exact run_concluded_map (Row.keeps_withColumns places) table context matched

end Engine

/-! ## An instance -/

/-- Three rules, of which two match an adult in red. -/
def Draft.redAdults : Draft where
  id := "red adults"
  inputs := [{ name := "age", typeName := some "long" }, { name := "colour" }]
  outputs := [{ name := "fee" }]
  rules := [⟨none, [.test ⟨"< 18", none⟩, .test ⟨"\"red\"", none⟩], [⟨"1", none⟩]⟩,
    ⟨some "adult", [.test ⟨">= 18", none⟩, .any], [⟨"2", none⟩]⟩,
    ⟨none, [.any, .test ⟨"\"red\"", none⟩], [⟨"3", none⟩]⟩]

def Table.redAdults : Table := ⟨.redAdults, Draft.valid_of_fault?_eq_none (by decide +kernel)⟩

/-- An adult in red. -/
def Variables.redAdult : Variables :=
  (∅ : Variables).insertMany [("age", .string "42"), ("colour", .string "red")]

/-- The same table with the colour in front of the age. -/
def Table.redAdultsByColour : Table := Table.redAdults.withColumns [1, 0] (.swap 0 1 [])

/-- With the columns exchanged the second cell of the first rule is asked for, which it
    is not otherwise. The error names the same rules. -/
theorem Engine.report_redAdults :
    [1, 0].Perm (List.range Table.redAdults.inputs.length) ∧
      standard.CompletesMatching .redAdults .redAdult ∧
      standard.CompletesMatching .redAdultsByColour .redAdult ∧
      standard.report .redAdults .redAdult = .error (.multipleMatches ["adult", "#3"]) ∧
      standard.report .redAdultsByColour .redAdult = standard.report .redAdults .redAdult := by
  have h : [1, 0].Perm (List.range Table.redAdults.inputs.length) := .swap 0 1 []
  have hfirst : standard.CompletesMatching .redAdults .redAdult :=
    ⟨_, Table.redAdults.rows.drop 1, rfl, by decide +kernel⟩
  have hsecond : standard.CompletesMatching .redAdultsByColour .redAdult :=
    ⟨_, Table.redAdultsByColour.rows.drop 1, rfl, by decide +kernel⟩
  exact ⟨h, hfirst, hsecond, by decide +kernel, report_withColumns .redAdults h hfirst hsecond⟩

/-- An error that hides behind a cell that does not hold comes to light if its column
    comes first. -/
def Draft.hiddenError : Draft where
  id := "hidden error"
  inputs := [{ name := "age" }, { name := "colour" }]
  outputs := [{ name := "fee" }]
  rules := [⟨none, [.test ⟨"< 18", none⟩, .test ⟨"shade", none⟩], [⟨"1", none⟩]⟩]
  policy := .first

def Table.hiddenError : Table :=
  ⟨.hiddenError, Draft.valid_of_fault?_eq_none (by decide +kernel)⟩

example : Engine.standard.report .hiddenError .redAdult = .ok ⟨.empty, [], []⟩ ∧
    Engine.standard.report
      (Table.hiddenError.withColumns [1, 0] (.swap 0 1 [])) .redAdult =
        .error (.expression (.unknownVariable "shade" "shade")) := by
  decide +kernel

end Decision
