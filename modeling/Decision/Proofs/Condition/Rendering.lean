import Decision.Proofs.Condition.Reading

/-!
# Writing Conditions

Every condition that tests something can be written, and what is written is read
back as that condition.

The reader forgets what a text looks like: where its blanks are and which of two
brackets closes a range. To write a condition is to make these choices again, so
the writer takes them as another argument. A layout holds the blanks in every
place that allows them and says which brackets are turned around. Nothing that is
read back depends on it.

Not every operand has a written form. A condition may hold any value for a literal
and any text for a name, but a list or a map is never read, only some texts are
read as names, and three of those are read as something else. `Printable` leaves
what has none of these troubles. It leaves out the doubles too, since not all of
them have digits.

Two escapes are enough to write a string. The reader knows two more, for a line
feed and a tab, and these two characters also stand for themselves.

The written form is a derivation of the grammar by construction, except for the
blanks in front of it, and the blanks at either end of a text do not change the
symbols that are read. So nothing has to be said here about how a text is read.

## Main definitions

* `Spacing`: A run of blanks.
* `Test.Layout`, `Condition.Layout`: The freedom in writing a test and a condition.
* `Operand.render`, `Test.render`, `Condition.render`: The written forms.
* `Operand.Printable`, `Test.Printable`, `Condition.Printable`: What has a
  written form.

## Theorems

* `Operand.written_render`: Operands are written by the grammar.
* `Test.writtenList_renderList`: So are tests with commas between them.
* `parse?_render`: What is written is read back.
-/

namespace Decision

/-! ## Operands -/

/-- How a character is written inside a string. -/
def Operand.guard (c : Char) : List Char := if c = '"' ∨ c = '\\' then ['\\', c] else [c]

/-- The written form of an operand. -/
def Operand.render : Operand → List Char
  | .literal .null => "null".toList
  | .literal (.bool true) => "true".toList
  | .literal (.bool false) => "false".toList
  | .literal (.int n) => Numeral.integerText n
  | .literal (.string text) => '"' :: (text.toList.flatMap guard ++ ['"'])
  | .literal _ => []
  | .named name => name.toList

/-- An operand has a written form: it is null, a truth value, an integer, a string
    or a name that is read as one. -/
def Operand.Printable : Operand → Prop
  | .literal .null => True
  | .literal (.bool _) => True
  | .literal (.int _) => True
  | .literal (.string _) => True
  | .literal _ => False
  | .named name => Name name.toList ∧ name.toList ∉ reserved

namespace Operand

theorem quoted_guard (content : List Char) : Quoted (content.flatMap guard) content := by
  induction content with
  | nil => exact .nil
  | cons c content ih =>
      rw [List.flatMap_cons, guard]
      by_cases hquote : c = '"'
      · rw [if_pos (Or.inl hquote), hquote]
        exact .quote ih
      · by_cases hslash : c = '\\'
        · rw [if_pos (Or.inr hslash), hslash]
          exact .slash ih
        · rw [if_neg (not_or.mpr ⟨hquote, hslash⟩)]
          exact .plain hquote hslash ih

theorem digits_digits (n : Nat) : Digits (Numeral.digits n) :=
  ⟨Numeral.digits_ne_nil n, fun _ hc => Numeral.isDigit_of_mem_digits hc⟩

/-- The decimal form of an integer is a literal for it. -/
theorem written_integerText (n : Int64) :
    Operand.Written (Numeral.integerText n) (.literal (.int n)) := by
  have hdigits := digits_digits n.toInt.natAbs
  have hvalue := Numeral.ofDigitChars_digits n.toInt.natAbs
  rw [Numeral.integerText]
  generalize Numeral.digits n.toInt.natAbs = digits at hdigits hvalue ⊢
  by_cases hn : n.toInt < 0
  · rw [if_pos hn]
    refine Written.int .present hdigits ?_
    rw [if_pos rfl, hvalue]
    omega
  · rw [if_neg hn]
    refine Written.int .absent hdigits ?_
    rw [if_neg Bool.false_ne_true, hvalue]
    omega

/-- The written form of an operand is derived by the grammar. -/
theorem written_render {operand : Operand} (h : operand.Printable) :
    operand.Written operand.render := by
  cases operand with
  | named name =>
      have hwritten := Written.named h.1 h.2
      rw [String.ofList_toList] at hwritten
      exact hwritten
  | literal value =>
      cases value with
      | null => exact .null
      | bool b =>
          cases b with
          | true => exact .true
          | false => exact .false
      | int n => exact written_integerText n
      | string text =>
          have hwritten := Written.string (quoted_guard text.toList)
          rw [String.ofList_toList] at hwritten
          exact hwritten
      | float x => exact False.elim h
      | list items => exact False.elim h
      | map keys item => exact False.elim h

end Operand

/-! ## Tests -/

/-- A run of blanks. -/
structure Spacing where
  chars : List Char
  blanks : Blanks chars

/-- The freedom in writing a test: the blanks around it, the blanks around its
    operands, and which brackets of a range are turned around. A comparison has
    one operand, and blanks only in front of it. -/
structure Test.Layout where
  before : Spacing
  beforeFirst : Spacing
  behindFirst : Spacing
  beforeSecond : Spacing
  behindSecond : Spacing
  behind : Spacing
  turnedOpening : Bool
  turnedClosing : Bool

/-- The bracket that opens a range at a bound. -/
def Bound.opening (bound : Bound) (turned : Bool) : Char :=
  if bound.inclusive then '[' else if turned then ']' else '('

/-- The bracket that closes a range at a bound. -/
def Bound.closing (bound : Bound) (turned : Bool) : Char :=
  if bound.inclusive then ']' else if turned then '[' else ')'

/-- The written form of a test without the blanks around it. -/
def Test.render (layout : Test.Layout) : Test → List Char
  | .compare .equal operand => operand.render
  | .compare relation operand =>
      relation.symbol.toList ++ layout.beforeFirst.chars ++ operand.render
  | .between low high =>
      low.opening layout.turnedOpening ::
        (layout.beforeFirst.chars ++ low.operand.render ++ layout.behindFirst.chars ++ ['.', '.'] ++
          layout.beforeSecond.chars ++ high.operand.render ++ layout.behindSecond.chars ++
          [high.closing layout.turnedClosing])

/-- The written form of some tests, each of which has its own layout. -/
def Test.renderList (layouts : Nat → Test.Layout) : List Test → List Char
  | [] => []
  | [test] => (layouts 0).before.chars ++ test.render (layouts 0) ++ (layouts 0).behind.chars
  | test :: next :: tests =>
      (layouts 0).before.chars ++ test.render (layouts 0) ++ (layouts 0).behind.chars ++
        ',' :: renderList (fun i => layouts (i + 1)) (next :: tests)

/-- The operands of a test have a written form. -/
def Test.Printable : Test → Prop
  | .compare _ operand => operand.Printable
  | .between low high => low.operand.Printable ∧ high.operand.Printable

theorem Bound.opening_opening (bound : Bound) (turned : Bool) :
    Opening (bound.opening turned) bound.inclusive := by
  unfold Bound.opening
  cases bound.inclusive with
  | true => exact .square
  | false =>
      cases turned with
      | true => exact .turned
      | false => exact .round

theorem Bound.closing_closing (bound : Bound) (turned : Bool) :
    Closing (bound.closing turned) bound.inclusive := by
  unfold Bound.closing
  cases bound.inclusive with
  | true => exact .square
  | false =>
      cases turned with
      | true => exact .turned
      | false => exact .round

namespace Test

theorem written_render {test : Test} (h : test.Printable) (layout : Test.Layout) :
    test.Written (test.render layout) := by
  cases test with
  | compare relation operand =>
      have hoperand : operand.Written operand.render := Operand.written_render h
      have hws := layout.beforeFirst.blanks
      cases relation with
      | equal => exact .equal hoperand
      | above => exact .compare .above hws hoperand
      | atLeast => exact .compare .atLeast hws hoperand
      | below => exact .compare .below hws hoperand
      | atMost => exact .compare .atMost hws hoperand
  | between low high =>
      exact .between (low.opening_opening layout.turnedOpening) layout.beforeFirst.blanks
        (Operand.written_render h.1) layout.behindFirst.blanks layout.beforeSecond.blanks
        (Operand.written_render h.2) layout.behindSecond.blanks
        (high.closing_closing layout.turnedClosing)

/-- Tests with commas between them are derived by the grammar, but for the blanks
    behind the last of them. -/
theorem writtenList_renderList {tests : List Test} (hne : tests ≠ [])
    (h : ∀ test ∈ tests, test.Printable) (layouts : Nat → Test.Layout) :
    ∃ written ws, renderList layouts tests = written ++ ws ∧ Blanks ws ∧
      WrittenList written tests := by
  fun_induction renderList layouts tests with
  | case1 => exact absurd rfl hne
  | case2 layouts test =>
      have htest : test.Written (test.render (layouts 0)) :=
        written_render (h test List.mem_cons_self) (layouts 0)
      exact ⟨_, _, rfl, (layouts 0).behind.blanks, .one (layouts 0).before.blanks htest⟩
  | case3 layouts test next tests ih =>
      -- The tests behind the first are shorter by one and have the layouts from the second on.
      have htest : test.Written (test.render (layouts 0)) :=
        written_render (h test List.mem_cons_self) (layouts 0)
      rcases ih (List.cons_ne_nil next tests) fun other hother =>
        h other (List.mem_cons_of_mem test hother) with ⟨written, ws, hrest, hws, hwritten⟩
      refine ⟨_, ws, ?_, hws, .more (layouts 0).before.blanks htest (layouts 0).behind.blanks
        hwritten⟩
      rw [hrest, List.append_assoc _ (',' :: written), List.cons_append]

end Test

/-! ## Conditions -/

/-- The freedom in writing a condition. -/
structure Condition.Layout where
  before : Spacing
  behindNot : Spacing
  tests : Nat → Test.Layout
  behind : Spacing

namespace Condition

/-- The written form of a condition. One without a test is written as nothing. -/
def render (layout : Condition.Layout) : Condition → List Char
  | .any => []
  | .anyOf tests =>
      layout.before.chars ++ (Test.renderList layout.tests tests ++ layout.behind.chars)
  | .noneOf tests =>
      layout.before.chars ++ ("not".toList ++ layout.behindNot.chars ++
        '(' :: (Test.renderList layout.tests tests ++ ')' :: layout.behind.chars))

/-- A condition has at least one test, and its tests have a written form. -/
def Printable : Condition → Prop
  | .any => False
  | .anyOf tests => tests ≠ [] ∧ ∀ test ∈ tests, test.Printable
  | .noneOf tests => tests ≠ [] ∧ ∀ test ∈ tests, test.Printable

/-- Only the blanks in front keep a rendered condition from being derived by the
    grammar. -/
theorem written_render {condition : Condition} (h : condition.Printable)
    (layout : Condition.Layout) :
    ∃ written, condition.render layout = layout.before.chars ++ written ∧
      condition.Written written := by
  cases condition with
  | any => exact False.elim h
  | anyOf tests =>
      rcases Test.writtenList_renderList h.1 h.2 layout.tests with ⟨written, ws, heq, hws, hlist⟩
      refine ⟨_, rfl, ?_⟩
      rw [heq, List.append_assoc]
      exact .anyOf hlist (Token.blanks_append hws layout.behind.blanks)
  | noneOf tests =>
      rcases Test.writtenList_renderList h.1 h.2 layout.tests with ⟨written, ws, heq, hws, hlist⟩
      refine ⟨_, rfl, ?_⟩
      rw [heq]
      exact .noneOf layout.behindNot.blanks hlist hws layout.behind.blanks

theorem parse?_render {condition : Condition} (h : condition.Printable)
    (layout : Condition.Layout) :
    parse? (String.ofList (condition.render layout)) = some condition := by
  rcases written_render h layout with ⟨written, heq, hwritten⟩
  -- What is derived has symbols, and they are the same with more blanks in front.
  rcases ofTokens?_of_written hwritten with ⟨tokens, hspelled, hapart, hread⟩
  refine parse?_of_spelled ?_ hapart hread
  rw [String.toList_ofList, heq]
  exact Token.spelled_blanks_append layout.before.blanks hspelled

end Condition

theorem Operand.parse?_render {operand : Operand} (h : operand.Printable)
    (before behind : Spacing) :
    parse? (String.ofList (before.chars ++ operand.render ++ behind.chars)) = some operand := by
  have hwritten : Token.Spelled operand.render [.operand operand] :=
    Token.spelled_of_written (.operand (written_render h))
  have hspelled := Token.spelled_append (Token.spelled_blanks_append before.blanks hwritten)
    (.nil behind.blanks)
  refine parse?_of_spelled ?_
  rw [String.toList_ofList]
  exact hspelled

/-- Every condition that tests something is read back from its written form,
    whatever the layout, and so is every operand with blanks around it. -/
theorem parse?_render_of_printable :
    (∀ condition : Condition, condition.Printable → ∀ layout : Condition.Layout,
      Condition.parse? (String.ofList (condition.render layout)) = some condition) ∧
    (∀ operand : Operand, operand.Printable → ∀ before behind : Spacing,
      Operand.parse? (String.ofList (before.chars ++ operand.render ++ behind.chars)) =
        some operand) :=
  ⟨fun _ h layout => Condition.parse?_render h layout,
    fun _ h before behind => Operand.parse?_render h before behind⟩

/-- The layout with the same blanks in every place. -/
def Condition.Layout.uniform (spacing : Spacing) (turned : Bool) : Condition.Layout where
  before := spacing
  behindNot := spacing
  tests := fun _ => ⟨spacing, spacing, spacing, spacing, spacing, spacing, turned, turned⟩
  behind := spacing

/-- A negation of a variable that is named like the negation itself, of a string
    with both escapes, and of a range that starts at the least integer. -/
def Condition.intricate : Condition :=
  .noneOf [.compare .equal (.named "not"), .compare .equal (.literal (.string "a\"\\")),
    .between ⟨.literal (.int Int64.minValue), false⟩ ⟨.named "a.b", true⟩]

theorem parse?_render_intricate :
    Condition.intricate.Printable ∧
      Condition.parse?
          " not ( not , \"a\\\"\\\\\" , ] -9223372036854775808 .. a.b ] ) " =
        some .intricate ∧
      (Operand.named "a.b").Printable ∧ Operand.parse? " a.b " = some (.named "a.b") := by
  have hspace : Blanks [' '] := List.forall_mem_singleton.mpr rfl
  have hnot : (Operand.named "not").Printable := ⟨Operand.name_cons rfl rfl, by decide⟩
  have hname : Name (['a'] ++ '.' :: ['b']) :=
    .dotted ⟨'a', [], rfl, rfl, List.forall_mem_nil _⟩ (Operand.name_cons rfl rfl)
  have hdotted : (Operand.named "a.b").Printable := ⟨hname, by decide⟩
  have hprintable : Condition.intricate.Printable := by
    refine ⟨List.cons_ne_nil _ _, ?_⟩
    simp only [List.forall_mem_cons]
    exact ⟨hnot, trivial, ⟨trivial, hdotted⟩, List.forall_mem_nil _⟩
  exact ⟨hprintable,
    parse?_render_of_printable.1 _ hprintable (.uniform ⟨[' '], hspace⟩ true), hdotted,
    parse?_render_of_printable.2 _ hdotted ⟨[' '], hspace⟩ ⟨[' '], hspace⟩⟩

end Decision
