import Decision.Proofs.Condition.Outcome
import Decision.Proofs.Condition.Reading

/-!
# Conditions Made of Other Texts

A condition can be put together from texts that are complete by themselves, and
then it means what they mean together.

There are three ways. A comma between two lists of tests makes one list of them.
A negation takes a list of tests between its brackets. And an operand, which is
what an output cell holds, is a test by itself when it stands in an input cell.

None of this is plain from the reader, which takes as much for a symbol as it can
and might have taken more where a comma or a bracket follows. It is plain from the
grammar, which has no way of looking ahead. A list of tests ends with a character
that counts, so the blanks behind it belong to whatever comes next, and one
derivation can be put inside another. The reader finds every derivation, and that
is all that has to be known about it here.

A comma does not only join. Between the quotes of a string it is a character like
any other, so two texts that are no conditions may make one with a comma between
them. A negation is better behaved: it is read if and only if what stands between
its brackets is read as tests, because nothing else may stand there.

An answer is reported with the text of the cell it was found for. So the answers
for a text and for its parts can only be the same up to that text.

## Main definitions

* `Condition.joinedText`, `Condition.negatedText`: Texts put together.
* `eitherHolds`: The answer of two conditions of which one has to hold.
* `ExpressionError.about`: A reason, reported for another text.

## Theorems

* `Test.writtenList_append`: Lists of tests are joined by a comma.
* `Condition.parse?_negatedText`: What a negation is read as.
* `Condition.composes_of_trimmed`: Joined and negated texts, and their answers.
* `Operand.parse?_iff_equals`: An operand alone asks for equality.
-/

namespace Decision

/-! ## Derivations inside derivations -/

/-- Lists of tests are joined by a comma, with or without blanks in front of it. -/
theorem Test.writtenList_append {cs ws rest : List Char} {tests others : List Test}
    (h : WrittenList cs tests) (hws : Blanks ws) (hrest : WrittenList rest others) :
    WrittenList (cs ++ ws ++ ',' :: rest) (tests ++ others) := by
  induction h with
  | one hbefore h => exact .more hbefore h hws hrest
  | more hbefore h hbehind _ ih =>
      have hmore := WrittenList.more hbefore h hbehind ih
      simp only [List.append_assoc, List.cons_append] at hmore ⊢
      exact hmore

namespace Condition

/-- A text that is derived is read, and no blanks have to be cut off for that. -/
theorem parse?_of_written {text : String} {condition : Condition}
    (h : condition.Written text.toList) : parse? text = some condition := by
  rcases ofTokens?_of_written h with ⟨tokens, hspelled, hapart, hread⟩
  exact parse?_of_spelled hspelled hapart hread

theorem written_anyOf_of_parse? {text : String} {tests : List Test}
    (htrim : Text.trim text.toList = text.toList) (h : parse? text = some (.anyOf tests)) :
    (Condition.anyOf tests).Written text.toList := by
  rcases (parse?_eq_some_iff text (.anyOf tests)).mp h with ⟨_, hany⟩ | hwritten
  · exact absurd hany nofun
  · rw [← htrim]
    exact hwritten

/-! ## Joined texts -/

/-- Two texts with a comma between them. -/
def joinedText (first second : String) : String := first ++ "," ++ second

theorem toList_joinedText (first second : String) :
    (joinedText first second).toList = first.toList ++ ',' :: second.toList := by
  rw [joinedText, String.toList_append, String.toList_append, List.append_assoc]
  rfl

/-- Two lists of tests with a comma between them are read as one list. -/
theorem parse?_joinedText {first second : String} {tests others : List Test}
    (hfirst : (Condition.anyOf tests).Written first.toList)
    (hsecond : (Condition.anyOf others).Written second.toList) :
    parse? (joinedText first second) = some (.anyOf (tests ++ others)) := by
  refine parse?_of_written ?_
  rw [toList_joinedText]
  generalize first.toList = cs at hfirst
  generalize second.toList = ds at hsecond
  cases hfirst with
  | anyOf hlist hws =>
      cases hsecond with
      | @anyOf written ws _ hlist' hws' =>
          -- The blanks behind the first list stand in front of the comma now.
          have hjoined := Condition.Written.anyOf (Test.writtenList_append hlist hws hlist') hws'
          rw [List.append_assoc _ (',' :: written), List.cons_append] at hjoined
          exact hjoined

/-! ## Negated texts -/

/-- A text between the brackets of a negation. -/
def negatedText (text : String) : String := "not(" ++ text ++ ")"

theorem toList_negatedText (text : String) :
    (negatedText text).toList = "not".toList ++ '(' :: (text.toList ++ [')']) := by
  rw [negatedText, String.toList_append, String.toList_append, List.append_assoc]
  rfl

/-- Tests are derived if they are derived between the brackets of a negation. -/
theorem written_noneOf_iff {cs : List Char} {tests : List Test} :
    (Condition.noneOf tests).Written ("not".toList ++ '(' :: (cs ++ [')'])) ↔
      (Condition.anyOf tests).Written cs := by
  constructor
  · intro h
    generalize htext : "not".toList ++ '(' :: (cs ++ [')']) = text at h
    cases h with
    | @noneOf w₁ written w₂ w₃ _ h₁ hlist h₂ h₃ =>
        rw [List.append_assoc, List.append_cancel_left_eq] at htext
        cases w₁ with
        | cons c w₁ =>
            rw [← (List.cons.inj htext).1] at h₁
            exact absurd (h₁ '(' List.mem_cons_self) (by decide)
        | nil =>
            have hinside := (List.cons.inj htext).2
            -- The last bracket is the last character, so there are no blanks behind it.
            cases w₃ using List.reverseRecOn with
            | append_singleton w₃ c =>
                rw [← List.cons_append, ← List.append_assoc] at hinside
                have hlast := (List.append_inj' hinside rfl).2
                rw [← (List.cons.inj hlast).1] at h₃
                exact absurd (h₃ ')' (List.mem_append_right _ List.mem_cons_self)) (by decide)
            | nil =>
                rw [List.append_cancel_right_eq] at hinside
                rw [hinside]
                exact .anyOf hlist h₂
  · intro h
    cases h with
    | @anyOf written ws _ hlist hws =>
        exact .noneOf (List.forall_mem_nil _) hlist hws (List.forall_mem_nil _)

/-- The symbols of a text that starts like a negation start like one. -/
theorem scan?_negation (rest : List Char) :
    Token.scan? ("not".toList ++ '(' :: rest) =
      (Token.scan? rest).map fun tokens => .operand (.named "not") :: .roundOpen :: tokens := by
  -- The bracket ends the name, whatever follows it.
  have hword : Name ['n', 'o', 't'] := Operand.name_cons rfl rfl
  have hstops : Operand.Stops ('(' :: rest) := rfl
  have hread : Operand.read? ('n' :: 'o' :: 't' :: '(' :: rest) =
      some (.named "not", '(' :: rest) :=
    Operand.read?_of_name hword hstops
  have hname : Token.next? (Token.skipSpace ('n' :: 'o' :: 't' :: '(' :: rest)) =
      some (.operand (.named "not"), '(' :: rest) := by
    rw [Token.skipSpace_cons rfl, Token.next?_of_starts rfl, hread]
    rfl
  have hopen : Token.next? (Token.skipSpace ('(' :: rest)) = some (.roundOpen, rest) := by
    rw [Token.skipSpace_cons rfl]
    rfl
  have hscan := Token.scan?_of_next? hname
  rw [Token.scan?_of_next? hopen, Option.map_map] at hscan
  exact hscan

/-- A text that starts like a negation is one, if it is a condition at all. -/
theorem exists_noneOf_of_written {rest : List Char} {condition : Condition}
    (h : condition.Written ("not".toList ++ '(' :: rest)) : ∃ tests, condition = .noneOf tests := by
  rcases ofTokens?_of_written h with ⟨tokens, hspelled, hapart, hread⟩
  have hscan := Token.scan?_of_spelled hspelled hapart
  rw [scan?_negation] at hscan
  rcases Option.map_eq_some_iff.mp hscan with ⟨inside, _, rfl⟩
  rcases Option.bind_eq_some_iff.mp hread with ⟨_, _, hread⟩
  rcases Option.bind_eq_some_iff.mp hread with ⟨tests, _, hread⟩
  exact ⟨tests, (Option.some.inj hread).symm⟩

/-- A negation is read if and only if what stands between its brackets is read as
    tests. -/
theorem parse?_negatedText {text : String} (htrim : Text.trim text.toList = text.toList)
    (condition : Condition) :
    parse? (negatedText text) = some condition ↔
      ∃ tests, condition = .noneOf tests ∧ parse? text = some (.anyOf tests) := by
  constructor
  · intro h
    -- Neither end of the text is a blank, and it is too long for one without a test.
    have hends : Text.trim (negatedText text).toList = (negatedText text).toList := by
      refine Text.trim_eq_self ?_ ?_
      · intro c hc
        rw [toList_negatedText] at hc
        rw [← Option.some.inj hc]
        decide
      · intro c hc
        rw [toList_negatedText, ← List.cons_append, ← List.append_assoc,
          List.getLast?_append_of_ne_nil _ (List.cons_ne_nil _ _)] at hc
        rw [← Option.some.inj hc]
        decide
    rcases (parse?_eq_some_iff (negatedText text) condition).mp h with
      ⟨hempty | hminus, _⟩ | hwritten
    · rw [hends, toList_negatedText] at hempty
      exact absurd hempty nofun
    · rw [hends, toList_negatedText] at hminus
      exact absurd (List.cons.inj hminus).1 (by decide)
    · rw [hends, toList_negatedText] at hwritten
      rcases exists_noneOf_of_written hwritten with ⟨tests, rfl⟩
      exact ⟨tests, rfl, parse?_of_written (written_noneOf_iff.mp hwritten)⟩
  · rintro ⟨tests, rfl, h⟩
    refine parse?_of_written ?_
    rw [toList_negatedText]
    exact written_noneOf_iff.mpr (written_anyOf_of_parse? htrim h)

end Condition

/-! ## Answers -/

/-- The answer of two conditions of which one has to hold. The second one counts
    only if the first is a no. -/
def eitherHolds {ε : Type} (first second : Except ε Bool) : Except ε Bool :=
  match first with
  | .ok false => second
  | decided => decided

/-- A reason, reported for another text. -/
def ExpressionError.about (text : String) : ExpressionError → ExpressionError
  | .malformed _ => .malformed text
  | .unknownVariable _ name => .unknownVariable text name
  | .unsupportedLanguage language => .unsupportedLanguage language
  | .evaluation _ message => .evaluation text message

/-- Some tests and some more hold if either of them do. -/
theorem Test.anyHolds_append_eq (lookup : String → Option Value) (value : Value)
    (tests others : List Test) :
    anyHolds lookup value (tests ++ others) =
      eitherHolds (anyHolds lookup value tests) (anyHolds lookup value others) := by
  induction tests with
  | nil => rfl
  | cons test tests ih =>
      rw [List.cons_append, anyHolds, anyHolds, ih]
      cases test.holds lookup value with
      | error unbound => rfl
      | ok met =>
          cases met with
          | true => rfl
          | false => rfl

theorem Expression.checkLanguage_cases (cell : Expression) :
    cell.checkLanguage = .ok () ∨
      ∃ language, cell.checkLanguage = .error (.unsupportedLanguage language) := by
  unfold checkLanguage
  split
  · exact Or.inl rfl
  · split
    · exact Or.inl rfl
    · exact Or.inr ⟨_, rfl⟩

namespace Evaluator

theorem condition_of_parse? {text : String} {condition : Condition}
    (h : Condition.parse? text = some condition) (language : Option String) (value : Value)
    (context : Context) :
    simple.condition ⟨text, language⟩ value context =
      (Expression.checkLanguage ⟨text, language⟩).bind fun _ =>
        Expression.named ⟨text, language⟩ (condition.holds context.get? value) := by
  simp only [simple, Expression.readCondition, Expression.readWith, h]
  cases Expression.checkLanguage ⟨text, language⟩ <;> rfl

variable {first second : String} {tests others : List Test}

/-- Joined texts hold if either of them does, and a name that is missing is
    reported for the joined text. -/
theorem condition_joinedText (hfirst : Condition.parse? first = some (.anyOf tests))
    (hsecond : Condition.parse? second = some (.anyOf others))
    (hjoined : Condition.parse? (Condition.joinedText first second) =
      some (.anyOf (tests ++ others)))
    (language : Option String) (value : Value) (context : Context) :
    simple.condition ⟨Condition.joinedText first second, language⟩ value context =
      (eitherHolds (simple.condition ⟨first, language⟩ value context)
        (simple.condition ⟨second, language⟩ value context)).mapError
        (.about (Condition.joinedText first second)) := by
  rw [condition_of_parse? hfirst, condition_of_parse? hsecond, condition_of_parse? hjoined]
  have hlanguage : ∀ text, Expression.checkLanguage ⟨text, language⟩ =
      Expression.checkLanguage ⟨first, language⟩ := fun _ => rfl
  rw [hlanguage second, hlanguage (Condition.joinedText first second)]
  rcases Expression.checkLanguage_cases ⟨first, language⟩ with haccepted | ⟨_, hrefused⟩
  · simp only [haccepted, Except.bind, Condition.holds, Test.anyHolds_append_eq]
    cases Test.anyHolds context.get? value tests with
    | error unbound => rfl
    | ok met =>
        cases met with
        | true => rfl
        | false => cases Test.anyHolds context.get? value others <;> rfl
  · rw [hrefused]
    rfl

/-- A negated text answers the opposite, and a name that is missing is reported for
    the negated text. -/
theorem condition_negatedText (hfirst : Condition.parse? first = some (.anyOf tests))
    (hnegated : Condition.parse? (Condition.negatedText first) = some (.noneOf tests))
    (language : Option String) (value : Value) (context : Context) :
    simple.condition ⟨Condition.negatedText first, language⟩ value context =
      ((simple.condition ⟨first, language⟩ value context).map not).mapError
        (.about (Condition.negatedText first)) := by
  rw [condition_of_parse? hfirst, condition_of_parse? hnegated]
  have hlanguage : Expression.checkLanguage ⟨Condition.negatedText first, language⟩ =
      Expression.checkLanguage ⟨first, language⟩ := rfl
  rw [hlanguage]
  rcases Expression.checkLanguage_cases ⟨first, language⟩ with haccepted | ⟨_, hrefused⟩
  · simp only [haccepted, Except.bind, Condition.holds]
    cases Test.anyHolds context.get? value tests <;> rfl
  · rw [hrefused]
    rfl

end Evaluator

/-- Texts of tests without blanks around them are joined by a comma and negated by
    brackets, in what they are read as and in what they answer. Nothing but tests
    can be negated. -/
theorem Condition.composes_of_trimmed {first second : String}
    (hfirst : Text.trim first.toList = first.toList)
    (hsecond : Text.trim second.toList = second.toList) :
    (∀ tests others, parse? first = some (.anyOf tests) → parse? second = some (.anyOf others) →
      parse? (joinedText first second) = some (.anyOf (tests ++ others)) ∧
      ∀ language value context,
        Evaluator.simple.condition ⟨joinedText first second, language⟩ value context =
          (eitherHolds (Evaluator.simple.condition ⟨first, language⟩ value context)
            (Evaluator.simple.condition ⟨second, language⟩ value context)).mapError
            (.about (joinedText first second))) ∧
    (∀ tests, parse? (negatedText first) = some (.noneOf tests) ↔
      parse? first = some (.anyOf tests)) ∧
    ((∀ tests, parse? first ≠ some (.anyOf tests)) → parse? (negatedText first) = none) ∧
    (∀ tests, parse? first = some (.anyOf tests) → ∀ language value context,
      Evaluator.simple.condition ⟨negatedText first, language⟩ value context =
        ((Evaluator.simple.condition ⟨first, language⟩ value context).map not).mapError
          (.about (negatedText first))) := by
  -- A negated text is read as a negation, and only of a list of tests.
  have hnegated : ∀ tests, parse? (negatedText first) = some (.noneOf tests) ↔
      parse? first = some (.anyOf tests) := by
    intro tests
    rw [parse?_negatedText hfirst]
    constructor
    · rintro ⟨_, heq, h⟩
      rw [Condition.noneOf.inj heq]
      exact h
    · exact fun h => ⟨tests, rfl, h⟩
  refine ⟨?_, hnegated, ?_, ?_⟩
  · intro tests others htests hothers
    have hjoined := parse?_joinedText (written_anyOf_of_parse? hfirst htests)
      (written_anyOf_of_parse? hsecond hothers)
    exact ⟨hjoined, Evaluator.condition_joinedText htests hothers hjoined⟩
  · intro hnone
    rw [Option.eq_none_iff_forall_ne_some]
    intro condition h
    rcases (parse?_negatedText hfirst condition).mp h with ⟨tests, _, htests⟩
    exact hnone tests htests
  · exact fun tests htests => Evaluator.condition_negatedText htests ((hnegated tests).mpr htests)

/-- The first text has an open range and a string with a comma and a bracket in it,
    the second a name that is written like a negation. The value meets no test of the
    first, so the name is looked up, and it is reported for the joined text. -/
theorem Condition.composes_openRange :
    let first := "]1 .. x.y), \"a,)\""
    let second := "not, <=-5"
    let tests : List Test := [.between ⟨.literal (.int 1), false⟩ ⟨.named "x.y", false⟩,
      .compare .equal (.literal (.string "a,)"))]
    let others : List Test := [.compare .equal (.named "not"),
      .compare .atMost (.literal (.int (-5)))]
    let context : Context := ⟨∅, (∅ : Variables).insert "x.y" .null⟩
    (Text.trim first.toList = first.toList ∧ Text.trim second.toList = second.toList) ∧
      (parse? first = some (.anyOf tests) ∧ parse? second = some (.anyOf others)) ∧
      parse? "]1 .. x.y), \"a,)\",not, <=-5" = some (.anyOf (tests ++ others)) ∧
      Evaluator.simple.condition ⟨"]1 .. x.y), \"a,)\",not, <=-5", none⟩ (.int 0) context =
        .error (.unknownVariable "]1 .. x.y), \"a,)\",not, <=-5" "not") ∧
      parse? "not(]1 .. x.y), \"a,)\")" = some (.noneOf tests) ∧
      Evaluator.simple.condition ⟨"not(]1 .. x.y), \"a,)\")", none⟩ (.int 0) context = .ok true ∧
      parse? "not(-)" = none := by
  intro first second tests others context
  have hfirst : Text.trim first.toList = first.toList := by decide
  have hsecond : Text.trim second.toList = second.toList := by decide
  have htests : parse? first = some (.anyOf tests) := by decide +kernel
  have hothers : parse? second = some (.anyOf others) := by decide +kernel
  have hno : Evaluator.simple.condition ⟨first, none⟩ (.int 0) context = .ok false := by
    decide +kernel
  have hmissing : Evaluator.simple.condition ⟨second, none⟩ (.int 0) context =
      .error (.unknownVariable second "not") := by decide +kernel
  rcases composes_of_trimmed hfirst hsecond with ⟨hjoined, hnegated, _, hopposite⟩
  have hanswer := (hjoined tests others htests hothers).2 none (.int 0) context
  rw [hno, hmissing] at hanswer
  have hturned := hopposite tests htests none (.int 0) context
  rw [hno] at hturned
  -- A minus sign alone tests nothing, which is not a list of tests.
  have hminus : ∀ tests, parse? "-" ≠ some (.anyOf tests) := by
    intro tests h
    have hany : parse? "-" = some .any := by decide +kernel
    rw [hany] at h
    exact absurd (Option.some.inj h) nofun
  have htrim : Text.trim "-".toList = "-".toList := by decide
  exact ⟨⟨hfirst, hsecond⟩, ⟨htests, hothers⟩, (hjoined tests others htests hothers).1, hanswer,
    (hnegated tests).mpr htests, hturned, (composes_of_trimmed htrim htrim).2.2.1 hminus⟩

/-! ## Operands alone -/

/-- A text is derived as a single test for equality if and only if it is derived as
    an operand. -/
theorem Condition.written_equal_iff {cs : List Char}
    (hstart : ∀ ws rest, cs = ws ++ rest → Blanks ws → ws = [])
    (hend : ∀ rest ws, cs = rest ++ ws → Blanks ws → ws = []) (operand : Operand) :
    (Condition.anyOf [.compare .equal operand]).Written cs ↔ operand.Written cs := by
  constructor
  · intro h
    generalize htests : [Test.compare .equal operand] = tests at h
    cases h with
    | @anyOf written ws _ hlist hws =>
        rw [hend written ws rfl hws, List.append_nil]
        rw [hend written ws rfl hws, List.append_nil] at hstart
        cases hlist with
        | @one blanks written test hblanks h =>
            rw [hstart blanks written rfl hblanks, List.nil_append]
            rw [← (List.cons.inj htests).1] at h
            cases h with
            | equal h => exact h
            | compare hsign => exact absurd hsign nofun
        | more _ _ _ hrest =>
            rw [← (List.cons.inj htests).2] at hrest
            exact absurd hrest nofun
  · intro h
    have hwritten := Condition.Written.anyOf (.one (List.forall_mem_nil _) (.equal h))
      (List.forall_mem_nil _)
    rw [List.append_nil, List.nil_append] at hwritten
    exact hwritten

/-- A text that is not blank is an operand in an output cell if and only if it asks
    for equality with that operand in an input cell. -/
theorem Operand.parse?_iff_equals {text : String} (h : Text.trim text.toList ≠ [])
    (operand : Operand) :
    parse? text = some operand ↔
      Condition.parse? text = some (.anyOf [.compare .equal operand]) := by
  rw [parse?_eq_some_iff, Condition.parse?_eq_some_iff,
    Condition.written_equal_iff (fun _ _ => Text.eq_nil_of_trim_eq_append)
      (fun _ _ => Text.eq_nil_of_trim_eq_append_right)]
  simp only [h, false_and, false_or, reduceCtorEq, and_false]

/-- A name that starts with the word for a negation, with blanks around it. -/
theorem Operand.parse?_equals_notice :
    Text.trim " not.ice\t".toList ≠ [] ∧ Operand.parse? " not.ice\t" = some (.named "not.ice") ∧
      Condition.parse? " not.ice\t" = some (.anyOf [.compare .equal (.named "not.ice")]) := by
  have hne : Text.trim " not.ice\t".toList ≠ [] := by decide
  have hread : Operand.parse? " not.ice\t" = some (.named "not.ice") := by decide +kernel
  exact ⟨hne, hread, (parse?_iff_equals hne (.named "not.ice")).mp hread⟩

end Decision
