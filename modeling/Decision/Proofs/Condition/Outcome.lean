import Decision.Proofs.Condition.Names
import Decision.Proofs.Expression.Memory

/-!
# The Outcome of a Condition

What a condition answers for a value, without a word on how the answer is found.

A test does one of three things. It passes, it lacks the meaning of a name, or it
does neither, and the first two decide the condition. So the answer of several
tests is the business of the first one that decides: it passes, or its name is
reported. If no test decides, none of them has passed.

To pass, the names of a test must mean something and the comparisons must be
answered with yes. A comparison that has no answer is not an error, it is just
not a yes, and that is so whether the tests are negated or not. The low end of a
range is looked up before the high end, and both before anything is compared, so
a range can lack a name that no comparison would have asked for.

The relations below say this about contexts, and the evaluator agrees with them:
they have exactly one answer for a condition and a value, and it is the answer of
the evaluator. What can go wrong is therefore a name of the condition that is
neither bound nor supplied, and nothing else.

## Main definitions

* `Context.Means`, `Context.Lacks`: What a name means, and that it means nothing.
* `Test.Passes`, `Test.Lacks`: A test passes, or lacks the meaning of a name.
* `Condition.Answers`: The answer of a condition.

## Theorems

* `Test.anyHolds_append`: Tests that do not decide can be passed over.
* `Condition.exists_answers`: Every condition has an answer.
* `Condition.holds_eq_iff_answers`: It is the one that is computed.
* `Evaluator.condition_iff_answers`: The same for the evaluator and the text of a
  cell.
-/

namespace Decision

/-! ## Names -/

/-- What a name means in a context. A binding hides the variable behind it. -/
inductive Context.Means (context : Context) (name : String) (value : Value) : Prop where
  | bound (h : context.bindings[name]? = some value)
  | supplied (hfree : context.bindings[name]? = none) (h : context.variables[name]? = some value)

/-- A name means nothing in a context. -/
structure Context.Lacks (context : Context) (name : String) : Prop where
  unbound : context.bindings[name]? = none
  unsupplied : context.variables[name]? = none

/-- What an operand means in a context. -/
inductive Operand.Means (context : Context) : Operand → Value → Prop where
  | literal (value : Value) : Means context (.literal value) value
  | named {name : String} {value : Value} (h : context.Means name value) :
      Means context (.named name) value

/-- An operand is a name that means nothing in a context. -/
inductive Operand.Lacks (context : Context) : Operand → String → Prop where
  | named {name : String} (h : context.Lacks name) : Lacks context (.named name) name

/-! ## Tests -/

/-- A value passes a test: all comparisons are answered with yes. -/
inductive Test.Passes (context : Context) (value : Value) : Test → Prop where
  | compare {relation : Relation} {operand : Operand} {bound : Value}
      (hbound : operand.Means context bound) (h : value.compare relation bound = some true) :
      Passes context value (.compare relation operand)
  | between {low high : Bound} {lowest highest : Value}
      (hlow : low.operand.Means context lowest) (hhigh : high.operand.Means context highest)
      (habove : value.compare (if low.inclusive then .atLeast else .above) lowest = some true)
      (hbelow : value.compare (if high.inclusive then .atMost else .below) highest = some true) :
      Passes context value (.between low high)

/-- A test lacks the meaning of a name. The low end of a range comes first. -/
inductive Test.Lacks (context : Context) : Test → String → Prop where
  | compare {relation : Relation} {operand : Operand} {name : String}
      (h : operand.Lacks context name) : Lacks context (.compare relation operand) name
  | low {low high : Bound} {name : String} (h : low.operand.Lacks context name) :
      Lacks context (.between low high) name
  | high {low high : Bound} {lowest : Value} {name : String}
      (hlow : low.operand.Means context lowest) (h : high.operand.Lacks context name) :
      Lacks context (.between low high) name

/-- A test settles the answer of the tests it stands among. -/
def Test.Decides (context : Context) (value : Value) (test : Test) : Prop :=
  test.Passes context value ∨ ∃ name, test.Lacks context name

/-! ## Conditions -/

/-- The answer of a condition for a value: whether it is met, or the name that
    means nothing. -/
inductive Condition.Answers (context : Context) (value : Value) :
    Condition → Except Unbound Bool → Prop where
  | any : Answers context value .any (.ok true)
  /-- The first test that decides passes. -/
  | passed {before after : List Test} {test : Test}
      (hbefore : ∀ other ∈ before, ¬ other.Decides context value)
      (h : test.Passes context value) :
      Answers context value (.anyOf (before ++ test :: after)) (.ok true)
  /-- The first test that decides lacks the meaning of a name. -/
  | lacking {before after : List Test} {test : Test} {name : String}
      (hbefore : ∀ other ∈ before, ¬ other.Decides context value)
      (h : test.Lacks context name) :
      Answers context value (.anyOf (before ++ test :: after)) (.error ⟨name⟩)
  /-- No test decides. -/
  | undecided {tests : List Test} (h : ∀ test ∈ tests, ¬ test.Decides context value) :
      Answers context value (.anyOf tests) (.ok false)
  /-- The tests have an answer, and it is turned around. -/
  | opposite {tests : List Test} {met : Bool} (h : Answers context value (.anyOf tests) (.ok met)) :
      Answers context value (.noneOf tests) (.ok !met)
  /-- The tests lack the meaning of a name. -/
  | same {tests : List Test} {unbound : Unbound}
      (h : Answers context value (.anyOf tests) (.error unbound)) :
      Answers context value (.noneOf tests) (.error unbound)

section Answer

variable {context : Context} {value : Value}

theorem Context.get?_of_means {name : String} (h : context.Means name value) :
    context.get? name = some value := by
  unfold Context.get?
  cases h with
  | bound h =>
      rw [h]
      rfl
  | supplied hfree h =>
      rw [hfree, h]
      rfl

theorem Context.get?_of_lacks {name : String} (h : context.Lacks name) :
    context.get? name = none := by
  unfold Context.get?
  rw [h.unbound, h.unsupplied]
  rfl

theorem Context.means_or_lacks (context : Context) (name : String) :
    (∃ value, context.Means name value) ∨ context.Lacks name := by
  cases hbound : context.bindings[name]? with
  | some value => exact Or.inl ⟨value, .bound hbound⟩
  | none =>
      cases hsupplied : context.variables[name]? with
      | some value => exact Or.inl ⟨value, .supplied hbound hsupplied⟩
      | none => exact Or.inr ⟨hbound, hsupplied⟩

namespace Operand

variable {operand : Operand}

theorem resolve_of_means (h : operand.Means context value) :
    operand.resolve context.get? = .ok value := by
  cases h with
  | literal => rfl
  | named h => simp only [resolve, Context.get?_of_means h]

theorem resolve_of_lacks {name : String} (h : operand.Lacks context name) :
    operand.resolve context.get? = .error ⟨name⟩ := by
  cases h with
  | named h => simp only [resolve, Context.get?_of_lacks h]

theorem means_or_lacks (context : Context) (operand : Operand) :
    (∃ value, operand.Means context value) ∨ ∃ name, operand.Lacks context name := by
  cases operand with
  | literal value => exact Or.inl ⟨value, .literal value⟩
  | named name =>
      rcases context.means_or_lacks name with ⟨value, h⟩ | h
      · exact Or.inl ⟨value, .named h⟩
      · exact Or.inr ⟨name, .named h⟩

theorem mem_names_of_lacks {name : String} (h : operand.Lacks context name) :
    name ∈ operand.names ∧ context.Lacks name := by
  cases h with
  | named h => exact ⟨List.mem_singleton_self name, h⟩

end Operand

theorem Value.meets_iff {relation : Relation} {bound : Value} :
    value.meets relation bound = true ↔ value.compare relation bound = some true := by
  unfold Value.meets
  cases value.compare relation bound with
  | none => exact iff_of_false Bool.false_ne_true (Option.some_ne_none true).symm
  | some holds => rw [Option.getD_some, Option.some.injEq]

namespace Test

variable {test : Test} {tests : List Test}

theorem holds_of_passes (h : test.Passes context value) :
    test.holds context.get? value = .ok true := by
  cases h with
  | compare hbound h =>
      simp only [holds, Operand.resolve_of_means hbound, bind, Except.bind, pure, Except.pure,
        Value.meets_iff.mpr h]
  | between hlow hhigh habove hbelow =>
      simp only [holds, Operand.resolve_of_means hlow, Operand.resolve_of_means hhigh, bind,
        Except.bind, pure, Except.pure, Bound.lowRelation, Bound.highRelation,
        Value.meets_iff.mpr habove, Value.meets_iff.mpr hbelow, Bool.and_self]

theorem holds_of_lacks {name : String} (h : test.Lacks context name) :
    test.holds context.get? value = .error ⟨name⟩ := by
  cases h with
  | compare h => simp only [holds, Operand.resolve_of_lacks h, bind, Except.bind]
  | low h => simp only [holds, Operand.resolve_of_lacks h, bind, Except.bind]
  | high hlow h =>
      simp only [holds, Operand.resolve_of_means hlow, Operand.resolve_of_lacks h, bind,
        Except.bind]

/-- A test that does not decide has looked up its names, and not every comparison
    was answered with yes. -/
theorem holds_of_not_decides (h : ¬ test.Decides context value) :
    test.holds context.get? value = .ok false := by
  have hpasses : ¬ test.Passes context value := fun hpasses => h (Or.inl hpasses)
  have hlacks : ∀ name, ¬ test.Lacks context name := fun name hlacks => h (Or.inr ⟨name, hlacks⟩)
  cases test with
  | compare relation operand =>
      rcases operand.means_or_lacks context with ⟨bound, hbound⟩ | ⟨name, hname⟩
      · have hno : value.meets relation bound = false := by
          rw [← Bool.not_eq_true, Value.meets_iff]
          exact fun hyes => hpasses (.compare hbound hyes)
        simp only [holds, Operand.resolve_of_means hbound, bind, Except.bind, pure, Except.pure,
          hno]
      · exact absurd (.compare hname) (hlacks name)
  | between low high =>
      rcases low.operand.means_or_lacks context with ⟨lowest, hlow⟩ | ⟨name, hname⟩
      · rcases high.operand.means_or_lacks context with ⟨highest, hhigh⟩ | ⟨name, hname⟩
        · have hno : (value.meets low.lowRelation lowest &&
              value.meets high.highRelation highest) = false := by
            rw [← Bool.not_eq_true, Bool.and_eq_true, Value.meets_iff, Value.meets_iff]
            exact fun hyes => hpasses (.between hlow hhigh hyes.1 hyes.2)
          simp only [holds, Operand.resolve_of_means hlow, Operand.resolve_of_means hhigh, bind,
            Except.bind, pure, Except.pure, hno]
        · exact absurd (.high hlow hname) (hlacks name)
      · exact absurd (.low hname) (hlacks name)

/-- A test that was computed to be a no does not decide. -/
theorem not_decides_of_holds (h : test.holds context.get? value = .ok false) :
    ¬ test.Decides context value := by
  rintro (hpasses | ⟨name, hlacks⟩)
  · rw [holds_of_passes hpasses] at h
    exact Bool.true_eq_false.mp (Except.ok.inj h)
  · rw [holds_of_lacks hlacks] at h
    exact absurd h nofun

theorem anyHolds_cons_of_not_decides (h : ¬ test.Decides context value) (tests : List Test) :
    anyHolds context.get? value (test :: tests) = anyHolds context.get? value tests := by
  rw [anyHolds, holds_of_not_decides h]
  rfl

/-- Tests that do not decide can be passed over. -/
theorem anyHolds_append {before : List Test}
    (hbefore : ∀ other ∈ before, ¬ other.Decides context value) (tests : List Test) :
    anyHolds context.get? value (before ++ tests) = anyHolds context.get? value tests := by
  induction before with
  | nil => rfl
  | cons other before ih =>
      rw [List.cons_append, anyHolds_cons_of_not_decides (hbefore other List.mem_cons_self)]
      exact ih fun later hlater => hbefore later (List.mem_cons_of_mem other hlater)

theorem anyHolds_of_passes (h : test.Passes context value) (tests : List Test) :
    anyHolds context.get? value (test :: tests) = .ok true := by
  rw [anyHolds, holds_of_passes h]
  rfl

theorem anyHolds_of_lacks {name : String} (h : test.Lacks context name) (tests : List Test) :
    anyHolds context.get? value (test :: tests) = .error ⟨name⟩ := by
  rw [anyHolds, holds_of_lacks h]
  rfl

/-- Among some tests either none decides, or there is a first one that does. -/
theorem exists_first_decides (context : Context) (value : Value) (tests : List Test) :
    (∀ test ∈ tests, ¬ test.Decides context value) ∨
      ∃ before test after, tests = before ++ test :: after ∧
        (∀ other ∈ before, ¬ other.Decides context value) ∧ test.Decides context value := by
  induction tests with
  | nil => exact Or.inl (List.forall_mem_nil _)
  | cons test tests ih =>
      by_cases htest : test.Decides context value
      · exact Or.inr ⟨[], test, tests, rfl, List.forall_mem_nil _, htest⟩
      · -- The first one among the others, if there is one, is the first one of all.
        rcases ih with hnone | ⟨before, first, after, rfl, hbefore, hfirst⟩
        · exact Or.inl (List.forall_mem_cons.mpr ⟨htest, hnone⟩)
        · exact Or.inr ⟨test :: before, first, after, rfl,
            List.forall_mem_cons.mpr ⟨htest, hbefore⟩, hfirst⟩

theorem mem_names_of_lacks {name : String} (h : test.Lacks context name) :
    name ∈ test.names ∧ context.Lacks name := by
  cases h with
  | compare h => exact Operand.mem_names_of_lacks h
  | low h =>
      rcases Operand.mem_names_of_lacks h with ⟨hname, hlacks⟩
      exact ⟨List.mem_append_left _ hname, hlacks⟩
  | high _ h =>
      rcases Operand.mem_names_of_lacks h with ⟨hname, hlacks⟩
      exact ⟨List.mem_append_right _ hname, hlacks⟩

end Test

namespace Condition

variable {condition : Condition}

/-- The answer of a condition is what is computed. -/
theorem holds_of_answers {answer : Except Unbound Bool}
    (h : condition.Answers context value answer) :
    condition.holds context.get? value = answer := by
  induction h with
  | any => rfl
  | passed hbefore h =>
      rw [holds, Test.anyHolds_append hbefore, Test.anyHolds_of_passes h]
  | lacking hbefore h =>
      rw [holds, Test.anyHolds_append hbefore, Test.anyHolds_of_lacks h]
  | @undecided tests h =>
      -- All the tests are passed over, and nothing is left.
      have hend := Test.anyHolds_append h []
      rw [List.append_nil] at hend
      rw [holds, hend, Test.anyHolds]
  | opposite _ ih =>
      simp only [holds] at ih ⊢
      rw [ih]
      rfl
  | same _ ih =>
      simp only [holds] at ih ⊢
      rw [ih]
      rfl

/-- Every condition has an answer. -/
theorem exists_answers (context : Context) (value : Value) (condition : Condition) :
    ∃ answer, condition.Answers context value answer := by
  have hany : ∀ tests, ∃ answer, Answers context value (.anyOf tests) answer := by
    intro tests
    rcases Test.exists_first_decides context value tests with
      hnone | ⟨before, test, after, rfl, hbefore, hpasses | ⟨name, hlacks⟩⟩
    · exact ⟨_, .undecided hnone⟩
    · exact ⟨_, .passed hbefore hpasses⟩
    · exact ⟨_, .lacking hbefore hlacks⟩
  cases condition with
  | any => exact ⟨_, .any⟩
  | anyOf tests => exact hany tests
  | noneOf tests =>
      rcases hany tests with ⟨unbound | met, h⟩
      · exact ⟨_, .same h⟩
      · exact ⟨_, .opposite h⟩

/-- There is one answer, and it is the one that is computed. -/
theorem holds_eq_iff_answers (answer : Except Unbound Bool) :
    condition.holds context.get? value = answer ↔ condition.Answers context value answer := by
  constructor
  · intro hholds
    rcases condition.exists_answers context value with ⟨other, h⟩
    -- Some answer there is, and what is computed is that one.
    rw [holds_of_answers h] at hholds
    rw [← hholds]
    exact h
  · exact holds_of_answers

/-- A name is only missing if it stands in the condition and means nothing. -/
theorem mem_names_of_answers {unbound : Unbound}
    (h : condition.Answers context value (.error unbound)) :
    unbound.name ∈ condition.names ∧ context.Lacks unbound.name := by
  have hany : ∀ tests, Answers context value (.anyOf tests) (.error unbound) →
      unbound.name ∈ tests.flatMap Test.names ∧ context.Lacks unbound.name := by
    intro tests htests
    cases htests with
    | lacking _ hlacks =>
        rcases Test.mem_names_of_lacks hlacks with ⟨hname, hlacks⟩
        refine ⟨List.mem_flatMap.mpr ⟨_, ?_, hname⟩, hlacks⟩
        exact List.mem_append_right _ List.mem_cons_self
  cases h with
  | lacking hbefore h => exact hany _ (.lacking hbefore h)
  | same h => exact hany _ h

end Condition

end Answer

/-! ## Cells -/

theorem Expression.named_eq_ok_iff {α : Type} (cell : Expression) (answer : Except Unbound α)
    (found : α) : cell.named answer = .ok found ↔ answer = .ok found := by
  cases answer with
  | error unbound => exact iff_of_false nofun nofun
  | ok other =>
      rw [Except.ok.injEq]
      exact ⟨fun h => Except.ok.inj h, fun h => congrArg Except.ok h⟩

theorem Expression.named_eq_error_iff {α : Type} (cell : Expression) (answer : Except Unbound α)
    (reason : ExpressionError) : cell.named answer = .error reason ↔
      ∃ name, reason = .unknownVariable cell.text name ∧ answer = .error ⟨name⟩ := by
  constructor
  · intro h
    cases answer with
    | error unbound => exact ⟨unbound.name, (Except.error.inj h).symm, rfl⟩
    | ok found => exact absurd h nofun
  · rintro ⟨name, rfl, rfl⟩
    rfl

/-- A cell that is accepted and can be read has the answer of its condition, and
    the only thing that can go wrong is a name in it that means nothing. -/
theorem Evaluator.condition_iff_answers {cell : Expression} {condition : Condition}
    (hlanguage : cell.isSimple = true) (hparse : Condition.parse? cell.text = some condition)
    (value : Value) (context : Context) :
    (∀ met, simple.condition cell value context = .ok met ↔
      condition.Answers context value (.ok met)) ∧
    (∀ reason, simple.condition cell value context = .error reason ↔
      ∃ name, reason = .unknownVariable cell.text name ∧
        condition.Answers context value (.error ⟨name⟩)) ∧
    (∀ reason, simple.condition cell value context = .error reason →
      ∃ name ∈ condition.names, context.Lacks name ∧
        reason = .unknownVariable cell.text name) := by
  have hread : cell.readCondition = .ok condition := by
    rw [Expression.readCondition, Expression.checkLanguage_of_isSimple hlanguage,
      Expression.readWith, hparse]
    rfl
  have hanswer : simple.condition cell value context =
      cell.named (condition.holds context.get? value) := by
    simp only [simple, hread]
    rfl
  rw [hanswer]
  have herror : ∀ reason, cell.named (condition.holds context.get? value) = .error reason ↔
      ∃ name, reason = .unknownVariable cell.text name ∧
        condition.Answers context value (.error ⟨name⟩) := by
    intro reason
    simp only [Expression.named_eq_error_iff, Condition.holds_eq_iff_answers]
  refine ⟨fun met => ?_, herror, fun reason hreason => ?_⟩
  · rw [Expression.named_eq_ok_iff, Condition.holds_eq_iff_answers]
  · rcases (herror reason).mp hreason with ⟨name, rfl, hname⟩
    rcases Condition.mem_names_of_answers hname with ⟨hmem, hlacks⟩
    exact ⟨name, hmem, hlacks, rfl⟩

/-- The value lies below the range, and still the missing high end is reported. The
    first name is bound to null, which hides a variable that would have passed. -/
theorem Evaluator.condition_belowRange :
    let cell : Expression := ⟨"a, [5..b), 3", none⟩
    let context : Context := ⟨(∅ : Variables).insert "a" .null, (∅ : Variables).insert "a" (.int 3)⟩
    cell.isSimple = true ∧
      Condition.parse? cell.text = some (.anyOf [.compare .equal (.named "a"),
        .between ⟨.literal (.int 5), true⟩ ⟨.named "b", false⟩,
        .compare .equal (.literal (.int 3))]) ∧
      simple.condition cell (.int 3) context = .error (.unknownVariable cell.text "b") := by
  intro cell context
  have hlanguage : cell.isSimple = true := rfl
  have hparse : Condition.parse? cell.text = some (.anyOf [.compare .equal (.named "a"),
      .between ⟨.literal (.int 5), true⟩ ⟨.named "b", false⟩,
      .compare .equal (.literal (.int 3))]) := by decide +kernel
  have hfirst : ∀ other ∈ [Test.compare .equal (.named "a")],
      ¬ other.Decides context (.int 3) := by
    rw [List.forall_mem_singleton]
    exact Test.not_decides_of_holds (by decide +kernel)
  have hrange : Test.Lacks context
      (.between ⟨.literal (.int 5), true⟩ ⟨.named "b", false⟩) "b" :=
    .high (.literal (.int 5)) (.named ⟨by decide +kernel, by decide +kernel⟩)
  exact ⟨hlanguage, hparse,
    ((condition_iff_answers hlanguage hparse (.int 3) context).2.1 _).mpr
      ⟨"b", rfl, .lacking hfirst hrange⟩⟩

end Decision
