import Decision.Condition.Reading
import Decision.Proofs.Condition.Token
import Mathlib.Data.List.DropRight

/-!
# Reading Conditions and Operands

The reader of conditions accepts the texts that the grammar derives and gives
each of them the condition it was derived with.

The grammar is about characters and the reader about symbols, so every rule is
carried over to symbols first. A rule that starts with blanks and ends with
blanks needs no care, because a spelling has room for both. A single test has
neither, and a text with a test in it is the test with blanks around it.

The reader cuts the symbols at the commas and does not ask what is between them.
That is right because no test has a comma among its symbols. It takes a negation
for one by its first two symbols and never comes back to that, which is right
because no list of tests starts with an operand and a bracket.

## Theorems

* `Test.written_of_ofTokens?`, `Test.ofTokens?_of_written`: Single tests.
* `Test.writtenList_of_listOfTokens?`, `Test.listOfTokens?_of_writtenList`:
  Tests with commas between them.
* `Condition.written_of_ofTokens?`, `Condition.ofTokens?_of_written`: Conditions
  that test something.
* `parse?_eq_some_iff`: The texts of cells and what they denote.
* `Token.spelled_trim`: The symbols of a cell do not depend on the blanks around
  it.
-/

namespace Decision

/-! ## Single tests -/

theorem Token.written_of_opening {c : Char} {inclusive : Bool} (h : Opening c inclusive) :
    ∃ token, Written [c] token ∧ token.opens? = some inclusive ∧ token.isOperand = false := by
  cases h with
  | square => exact ⟨_, .squareOpen, rfl, rfl⟩
  | round => exact ⟨_, .roundOpen, rfl, rfl⟩
  | turned => exact ⟨_, .squareClose, rfl, rfl⟩

theorem Token.written_of_closing {c : Char} {inclusive : Bool} (h : Closing c inclusive) :
    ∃ token, Written [c] token ∧ token.closes? = some inclusive ∧ token.isOperand = false := by
  cases h with
  | square => exact ⟨_, .squareClose, rfl, rfl⟩
  | round => exact ⟨_, .roundClose, rfl, rfl⟩
  | turned => exact ⟨_, .squareOpen, rfl, rfl⟩

theorem Token.opening_of_opens? {cs : List Char} {token : Token} {inclusive : Bool}
    (h : token.opens? = some inclusive) (hw : Written cs token) :
    ∃ c, cs = [c] ∧ Opening c inclusive := by
  cases hw with
  | squareOpen =>
      rw [← Option.some.inj h]
      exact ⟨_, rfl, .square⟩
  | roundOpen =>
      rw [← Option.some.inj h]
      exact ⟨_, rfl, .round⟩
  | squareClose =>
      rw [← Option.some.inj h]
      exact ⟨_, rfl, .turned⟩
  | _ => exact absurd h (by simp only [opens?, reduceCtorEq, not_false_eq_true])

theorem Token.closing_of_closes? {cs : List Char} {token : Token} {inclusive : Bool}
    (h : token.closes? = some inclusive) (hw : Written cs token) :
    ∃ c, cs = [c] ∧ Closing c inclusive := by
  cases hw with
  | squareOpen =>
      rw [← Option.some.inj h]
      exact ⟨_, rfl, .turned⟩
  | roundClose =>
      rw [← Option.some.inj h]
      exact ⟨_, rfl, .round⟩
  | squareClose =>
      rw [← Option.some.inj h]
      exact ⟨_, rfl, .square⟩
  | _ => exact absurd h (by simp only [closes?, reduceCtorEq, not_false_eq_true])

namespace Test

/-- The symbols of a written test, and the test they are read as. -/
theorem ofTokens?_of_written {cs : List Char} {test : Test} (h : test.Written cs) :
    ∃ tokens, Token.Spelled cs tokens ∧ Token.Apart tokens ∧ ofTokens? tokens = some test := by
  cases h with
  | @equal _ operand h =>
      exact ⟨[.operand operand], Token.spelled_of_written (.operand h),
        List.isChain_singleton _, rfl⟩
  | @compare sign ws cs relation operand hsign hws h =>
      have hoperand := Token.spelled_blanks_append hws (Token.spelled_of_written (.operand h))
      have hspelled := Token.spelled_append (Token.spelled_of_written (.relation hsign)) hoperand
      rw [← List.append_assoc] at hspelled
      exact ⟨[.relation relation, .operand operand], hspelled, List.isChain_pair.mpr (Or.inl rfl),
        rfl⟩
  | @between opening closing w₁ w₂ w₃ w₄ lows highs low high hopening h₁ hlow h₂ h₃ hhigh h₄
      hclosing =>
      rcases Token.written_of_opening hopening with ⟨first, hfirst, hopens, hne₁⟩
      rcases Token.written_of_closing hclosing with ⟨last, hlast, hcloses, hne₂⟩
      refine ⟨[first, .operand low.operand, .dots, .operand high.operand, last], ?_, ?_, ?_⟩
      · have hblank := fun {ws cs : List Char} {token : Token} (hws : Blanks ws)
          (hw : token.Written cs) => Token.spelled_blanks_append hws (Token.spelled_of_written hw)
        have hspelled := Token.spelled_append (Token.spelled_of_written hfirst)
          (Token.spelled_append (hblank h₁ (.operand hlow)) (Token.spelled_append (hblank h₂ .dots)
            (Token.spelled_append (hblank h₃ (.operand hhigh)) (hblank h₄ hlast))))
        simp only [List.append_assoc, List.cons_append, List.nil_append] at hspelled ⊢
        exact hspelled
      · refine List.isChain_cons_cons.mpr ⟨Or.inl hne₁, List.isChain_cons_cons.mpr ⟨Or.inr rfl,
          List.isChain_cons_cons.mpr ⟨Or.inl rfl, List.isChain_pair.mpr (Or.inr hne₂)⟩⟩⟩
      · simp only [ofTokens?, hopens, hcloses]
        rfl

/-- Symbols that are read as a test, and the test as it is written between
    blanks. -/
theorem written_of_ofTokens? {cs : List Char} {tokens : List Token} {test : Test}
    (hspelled : Token.Spelled cs tokens) (h : ofTokens? tokens = some test) :
    ∃ w₁ written w₂, cs = w₁ ++ written ++ w₂ ∧ Blanks w₁ ∧ Blanks w₂ ∧
      test.Written written := by
  unfold ofTokens? at h
  split at h
  · rcases Token.spelled_cons_split hspelled with ⟨w₁, written, w₂, rfl, h₁, hw, hrest⟩
    cases hw with
    | operand hw =>
        rw [← Option.some.inj h]
        refine ⟨w₁, written, w₂, ?_, h₁, Token.blanks_of_spelled hrest, .equal hw⟩
        rw [List.append_assoc]
  · rcases Token.spelled_cons_split hspelled with ⟨w₁, sign, _, rfl, h₁, hsign, hrest⟩
    rcases Token.spelled_cons_split hrest with ⟨ws, written, w₂, rfl, hws, hw, hrest⟩
    cases hsign with
    | relation hsign =>
        cases hw with
        | operand hw =>
            rw [← Option.some.inj h]
            refine ⟨w₁, sign ++ ws ++ written, w₂, ?_, h₁, Token.blanks_of_spelled hrest,
              .compare hsign hws hw⟩
            simp only [List.append_assoc]
  · -- Each of the five symbols brings the blanks in front of it.
    rcases Token.spelled_cons_split hspelled with ⟨w, first, _, rfl, hw, hfirst, hrest⟩
    rcases Token.spelled_cons_split hrest with ⟨w₁, lows, _, rfl, h₁, hlow, hrest⟩
    rcases Token.spelled_cons_split hrest with ⟨w₂, dots, _, rfl, h₂, hdots, hrest⟩
    rcases Token.spelled_cons_split hrest with ⟨w₃, highs, _, rfl, h₃, hhigh, hrest⟩
    rcases Token.spelled_cons_split hrest with ⟨w₄, last, w', rfl, h₄, hlast, hend⟩
    rcases Option.bind_eq_some_iff.mp h with ⟨lowInclusive, hopens, h⟩
    rcases Option.bind_eq_some_iff.mp h with ⟨highInclusive, hcloses, h⟩
    rcases Token.opening_of_opens? hopens hfirst with ⟨opening, rfl, hopening⟩
    rcases Token.closing_of_closes? hcloses hlast with ⟨closing, rfl, hclosing⟩
    cases hdots with
    | dots =>
        cases hlow with
        | operand hlow =>
            cases hhigh with
            | operand hhigh =>
                rw [← Option.some.inj h]
                refine ⟨w, _, w', ?_, hw, Token.blanks_of_spelled hend,
                  .between hopening h₁ hlow h₂ h₃ hhigh h₄ hclosing⟩
                simp only [List.append_assoc, List.cons_append, List.nil_append]
  · exact absurd h (by simp only [reduceCtorEq, not_false_eq_true])

/-! ## Lists of tests -/

/-- No test has a comma among its symbols. -/
theorem comma_not_mem_of_ofTokens? {tokens : List Token} {test : Test}
    (h : ofTokens? tokens = some test) : Token.comma ∉ tokens := by
  unfold ofTokens? at h
  split at h
  · simp only [List.mem_singleton, reduceCtorEq, not_false_eq_true]
  · simp only [List.mem_cons, List.not_mem_nil, reduceCtorEq, or_self, not_false_eq_true]
  · rcases Option.bind_eq_some_iff.mp h with ⟨_, hopens, h⟩
    rcases Option.bind_eq_some_iff.mp h with ⟨_, hcloses, _⟩
    simp only [List.mem_cons, List.not_mem_nil, reduceCtorEq, or_false, false_or, not_or]
    constructor
    · rintro rfl
      exact absurd hopens (by simp only [Token.opens?, reduceCtorEq, not_false_eq_true])
    · rintro rfl
      exact absurd hcloses (by simp only [Token.closes?, reduceCtorEq, not_false_eq_true])
  · exact absurd h (by simp only [reduceCtorEq, not_false_eq_true])

end Test

namespace Token

theorem splitAtCommas_cons {token : Token} (h : token ≠ .comma) {rest piece : List Token}
    {pieces : List (List Token)} (hrest : splitAtCommas rest = piece :: pieces) :
    splitAtCommas (token :: rest) = (token :: piece) :: pieces := by
  rw [splitAtCommas, hrest]
  exact h

theorem splitAtCommas_of_not_mem {piece : List Token} (h : comma ∉ piece) :
    splitAtCommas piece = [piece] := by
  induction piece with
  | nil => rfl
  | cons token piece ih =>
      rw [List.mem_cons, not_or] at h
      exact splitAtCommas_cons (Ne.symm h.1) (ih h.2)

theorem splitAtCommas_append {piece : List Token} (h : comma ∉ piece) (rest : List Token) :
    splitAtCommas (piece ++ comma :: rest) = piece :: splitAtCommas rest := by
  induction piece with
  | nil => rfl
  | cons token piece ih =>
      rw [List.mem_cons, not_or] at h
      exact splitAtCommas_cons (Ne.symm h.1) (ih h.2)

theorem apart_append_cons {tokens tokens' : List Token} {token : Token} (h : Apart tokens)
    (hne : token.isOperand = false) (h' : Apart tokens') :
    Apart (tokens ++ token :: tokens') := by
  refine List.isChain_append.mpr ⟨h, ?_, ?_⟩
  · cases tokens' with
    | nil => exact List.isChain_singleton _
    | cons next tokens' => exact List.isChain_cons_cons.mpr ⟨Or.inl hne, h'⟩
  · intro first _ second hsecond
    rw [← Option.some.inj hsecond]
    exact Or.inr hne

end Token

namespace Test

theorem listOfTokens?_of_not_mem {piece : List Token} (h : Token.comma ∉ piece) :
    listOfTokens? piece = (ofTokens? piece).map fun test => [test] := by
  rw [listOfTokens?, Token.splitAtCommas_of_not_mem h]
  cases hpiece : ofTokens? piece <;> simp only [ofPieces?, hpiece] <;> rfl

theorem listOfTokens?_append {piece : List Token} (h : Token.comma ∉ piece) (rest : List Token) :
    listOfTokens? (piece ++ Token.comma :: rest) =
      (ofTokens? piece).bind fun test => (listOfTokens? rest).map fun tests => test :: tests := by
  rw [listOfTokens?, Token.splitAtCommas_append h]
  cases hpiece : ofTokens? piece with
  | none =>
      simp only [ofPieces?, hpiece]
      rfl
  | some test =>
      simp only [ofPieces?, hpiece]
      rw [← listOfTokens?]
      cases listOfTokens? rest <;> rfl

/-- The symbols of some written tests, and the tests they are read as. -/
theorem listOfTokens?_of_writtenList {cs : List Char} {tests : List Test}
    (h : WrittenList cs tests) :
    ∃ tokens, Token.Spelled cs tokens ∧ Token.Apart tokens ∧ listOfTokens? tokens = some tests := by
  induction h with
  | one hws h =>
      rcases ofTokens?_of_written h with ⟨tokens, hspelled, hapart, htest⟩
      refine ⟨tokens, Token.spelled_blanks_append hws hspelled, hapart, ?_⟩
      rw [listOfTokens?_of_not_mem (comma_not_mem_of_ofTokens? htest), htest]
      rfl
  | more hws h hws' _ ih =>
      rcases ofTokens?_of_written h with ⟨first, hfirst, hapart, htest⟩
      rcases ih with ⟨rest, hrest, hapart', htests⟩
      have hcomma := Token.spelled_append
        (Token.spelled_blanks_append hws' (Token.spelled_of_written .comma)) hrest
      have hspelled := Token.spelled_append (Token.spelled_blanks_append hws hfirst) hcomma
      simp only [List.append_assoc, List.cons_append, List.nil_append] at hspelled
      refine ⟨first ++ .comma :: rest, ?_, Token.apart_append_cons hapart rfl hapart', ?_⟩
      · simp only [List.append_assoc]
        exact hspelled
      · rw [listOfTokens?_append (comma_not_mem_of_ofTokens? htest), htest, htests]
        rfl

/-- Symbols that are read as some tests, and the tests as they are written with
    blanks behind them. -/
theorem writtenList_of_listOfTokens? {cs : List Char} {tokens : List Token} {tests : List Test}
    (hspelled : Token.Spelled cs tokens) (h : listOfTokens? tokens = some tests) :
    ∃ written ws, cs = written ++ ws ∧ Blanks ws ∧ WrittenList written tests := by
  induction hlength : tokens.length using Nat.strongRecOn generalizing cs tokens tests with
  | ind n ih =>
      by_cases hcomma : Token.comma ∈ tokens
      · -- The part behind the first comma is a shorter list of tests.
        rcases List.eq_append_cons_of_mem hcomma with ⟨piece, rest, rfl, hfree⟩
        rw [listOfTokens?_append hfree] at h
        rcases Option.bind_eq_some_iff.mp h with ⟨test, htest, h⟩
        rcases Option.map_eq_some_iff.mp h with ⟨tests, htests, rfl⟩
        rcases Token.spelled_append_split hspelled with ⟨first, _, rfl, hfirst, hsecond⟩
        rcases Token.spelled_cons_split hsecond with ⟨w₂', _, second, rfl, h₂', hw, hsecond⟩
        rcases written_of_ofTokens? hfirst htest with ⟨w₁, written, w₂, rfl, h₁, h₂, htest⟩
        have hlt : rest.length < n := by
          rw [← hlength, List.length_append, List.length_cons]
          omega
        rcases ih rest.length hlt hsecond htests rfl with ⟨writtens, ws, rfl, hws, htests⟩
        cases hw with
        | comma =>
            refine ⟨w₁ ++ written ++ (w₂ ++ w₂') ++ ',' :: writtens, ws, ?_, hws,
              .more h₁ htest (Token.blanks_append h₂ h₂') htests⟩
            simp only [List.append_assoc, List.cons_append, List.nil_append]
      · rw [listOfTokens?_of_not_mem hcomma] at h
        rcases Option.map_eq_some_iff.mp h with ⟨test, htest, rfl⟩
        rcases written_of_ofTokens? hspelled htest with ⟨w₁, written, w₂, rfl, h₁, h₂, htest⟩
        exact ⟨w₁ ++ written, w₂, rfl, h₂, .one h₁ htest⟩

end Test

/-! ## Conditions -/

theorem Token.beforeRoundClose?_append (inner : List Token) :
    beforeRoundClose? (inner ++ [.roundClose]) = some inner := by
  induction inner with
  | nil => rfl
  | cons token inner ih =>
      rw [List.cons_append, beforeRoundClose?, ih]
      · rfl
      · intro _ hnil
        exact List.append_ne_nil_of_right_ne_nil inner (List.cons_ne_nil _ _) hnil

theorem Token.eq_append_of_beforeRoundClose? {tokens inner : List Token}
    (h : beforeRoundClose? tokens = some inner) : tokens = inner ++ [.roundClose] := by
  fun_induction beforeRoundClose? tokens generalizing inner with
  | case1 => exact absurd h (by simp only [reduceCtorEq, not_false_eq_true])
  | case2 => rw [← Option.some.inj h, List.nil_append]
  | case3 token rest _ ih =>
      rcases Option.map_eq_some_iff.mp h with ⟨inner, hinner, rfl⟩
      rw [ih hinner, List.cons_append]

/-- No list of tests starts with an operand and a round bracket, as a negation
    does. -/
theorem Test.listOfTokens?_operand_roundOpen (operand : Operand) (rest : List Token) :
    listOfTokens? (.operand operand :: .roundOpen :: rest) = none := by
  have hsplit : ∃ piece pieces, Token.splitAtCommas rest = piece :: pieces := by
    by_cases hcomma : Token.comma ∈ rest
    · rcases List.eq_append_cons_of_mem hcomma with ⟨piece, rest, rfl, hfree⟩
      exact ⟨_, _, Token.splitAtCommas_append hfree rest⟩
    · exact ⟨_, _, Token.splitAtCommas_of_not_mem hcomma⟩
  rcases hsplit with ⟨piece, pieces, hsplit⟩
  have hround : Token.splitAtCommas (.roundOpen :: rest) = (.roundOpen :: piece) :: pieces :=
    Token.splitAtCommas_cons (by simp only [ne_eq, reduceCtorEq, not_false_eq_true]) hsplit
  have hoperand : Token.splitAtCommas (.operand operand :: .roundOpen :: rest) =
      (.operand operand :: .roundOpen :: piece) :: pieces :=
    Token.splitAtCommas_cons (by simp only [ne_eq, reduceCtorEq, not_false_eq_true]) hround
  rw [listOfTokens?, hoperand, ofPieces?]
  rfl

theorem Operand.eq_toList_of_written {cs : List Char} {name : String}
    (h : Operand.Written cs (.named name)) : cs = name.toList := by
  generalize hoperand : Operand.named name = operand at h
  cases h with
  | named =>
      rw [Operand.named.inj hoperand, String.toList_ofList]
  | _ => exact absurd hoperand (by simp only [reduceCtorEq, not_false_eq_true])

namespace Condition

theorem ofTokens?_of_listOfTokens? {tokens : List Token} {tests : List Test}
    (h : Test.listOfTokens? tokens = some tests) : ofTokens? tokens = some (.anyOf tests) := by
  unfold ofTokens?
  split
  · -- These symbols would be taken for a negation, and they are no tests.
    rw [Test.listOfTokens?_operand_roundOpen] at h
    exact absurd h (by simp only [reduceCtorEq, not_false_eq_true])
  · rw [h]
    rfl

/-- The symbols of a written condition, and the condition they are read as. -/
theorem ofTokens?_of_written {cs : List Char} {condition : Condition}
    (h : condition.Written cs) :
    ∃ tokens, Token.Spelled cs tokens ∧ Token.Apart tokens ∧
      ofTokens? tokens = some condition := by
  cases h with
  | anyOf h hws =>
      rcases Test.listOfTokens?_of_writtenList h with ⟨tokens, hspelled, hapart, htests⟩
      have hspelled := Token.spelled_append hspelled (.nil hws)
      rw [List.append_nil] at hspelled
      exact ⟨tokens, hspelled, hapart, ofTokens?_of_listOfTokens? htests⟩
  | @noneOf w₁ cs w₂ w₃ tests h₁ h h₂ h₃ =>
      rcases Test.listOfTokens?_of_writtenList h with ⟨inner, hinner, hapart, htests⟩
      have hnot : Operand.Written "not".toList (.named "not") :=
        .named (Operand.name_cons rfl rfl) (by decide)
      have hclose := Token.spelled_append
        (Token.spelled_blanks_append h₂ (Token.spelled_of_written .roundClose)) (.nil h₃)
      have hopen := Token.spelled_append
        (Token.spelled_blanks_append h₁ (Token.spelled_of_written .roundOpen))
        (Token.spelled_append hinner hclose)
      have hspelled := Token.spelled_append (Token.spelled_of_written (.operand hnot)) hopen
      refine ⟨.operand (.named "not") :: .roundOpen :: (inner ++ [.roundClose]), ?_, ?_, ?_⟩
      · simp only [List.append_assoc, List.cons_append, List.nil_append, List.append_nil]
          at hspelled ⊢
        exact hspelled
      · have hfirst : Token.Apart [.operand (.named "not")] := List.isChain_singleton _
        exact Token.apart_append_cons hfirst rfl
          (Token.apart_append_cons hapart rfl List.isChain_nil)
      · rw [ofTokens?, Token.beforeRoundClose?_append]
        simp only [bind, Option.bind, htests]
        rfl

/-- Symbols that are read as a condition, and the condition as it is written. A
    negation does not allow for blanks in front of it. -/
theorem written_of_ofTokens? {cs : List Char} {tokens : List Token} {condition : Condition}
    (hstart : ∀ ws rest, cs = ws ++ rest → Blanks ws → ws = [])
    (hspelled : Token.Spelled cs tokens) (h : ofTokens? tokens = some condition) :
    condition.Written cs := by
  unfold ofTokens? at h
  split at h
  · -- A negation is a name, a bracket, the tests and a last bracket.
    rcases Token.spelled_cons_split hspelled with ⟨ws, name, _, rfl, hws, hname, hrest⟩
    rcases Token.spelled_cons_split hrest with ⟨w₁, bracket, _, rfl, h₁, hopen, hrest⟩
    rcases Option.bind_eq_some_iff.mp h with ⟨inner, hinner, h⟩
    rcases Option.bind_eq_some_iff.mp h with ⟨tests, htests, h⟩
    rw [Token.eq_append_of_beforeRoundClose? hinner] at hrest
    rcases Token.spelled_append_split hrest with ⟨_, _, rfl, hfirst, hlast⟩
    rcases Token.spelled_cons_split hlast with ⟨w₂', _, w₃, rfl, h₂', hclose, hend⟩
    rcases Test.writtenList_of_listOfTokens? hfirst htests with ⟨written, w₂, rfl, h₂, hlist⟩
    rw [hstart ws _ rfl hws, ← Option.some.inj h]
    cases hopen with
    | roundOpen =>
        cases hclose with
        | roundClose =>
            cases hname with
            | operand hname =>
                rw [Operand.eq_toList_of_written hname]
                have hwritten := Condition.Written.noneOf h₁ hlist
                  (Token.blanks_append h₂ h₂') (Token.blanks_of_spelled hend)
                simp only [List.append_assoc, List.cons_append, List.nil_append] at hwritten ⊢
                exact hwritten
  · rcases Option.map_eq_some_iff.mp h with ⟨tests, htests, rfl⟩
    rcases Test.writtenList_of_listOfTokens? hspelled htests with ⟨written, ws, rfl, hws, hlist⟩
    exact .anyOf hlist hws

end Condition

/-! ## Texts of cells -/

namespace Text

theorem trim_eq_rdropWhile (cs : List Char) :
    trim cs = (cs.dropWhile isBlank).rdropWhile isBlank := rfl

theorem eq_nil_of_trim_eq_append {cs ws rest : List Char} (h : trim cs = ws ++ rest)
    (hws : Blanks ws) : ws = [] := by
  cases ws with
  | nil => rfl
  | cons c ws =>
      -- What is cut off at the end leaves the first character where it is.
      rcases List.rdropWhile_prefix isBlank (cs.dropWhile isBlank) with ⟨tail, htail⟩
      rw [← trim_eq_rdropWhile, h] at htail
      have hfirst := List.head?_dropWhile_not isBlank cs
      rw [← htail, List.cons_append, List.cons_append, List.head?_cons] at hfirst
      have hc := isBlank_of_isSpace (hws c List.mem_cons_self)
      exact absurd (hc.symm.trans hfirst) (by decide)

theorem eq_nil_of_trim_eq_append_right {cs rest ws : List Char} (h : trim cs = rest ++ ws)
    (hws : Blanks ws) : ws = [] := by
  by_contra hne
  have hlast := List.rdropWhile_last_not isBlank (cs.dropWhile isBlank)
  simp only [← trim_eq_rdropWhile, h, List.getLast_append_of_ne_nil _ hne] at hlast
  refine hlast (List.append_ne_nil_of_right_ne_nil rest hne) ?_
  exact isBlank_of_isSpace (hws _ (List.getLast_mem hne))

theorem rdropWhile_append_cons {p : Char → Bool} {c : Char} (hc : p c = false)
    (front rest : List Char) :
    (front ++ c :: rest).rdropWhile p = front ++ c :: rest.rdropWhile p := by
  have hkeep : ¬ p c = true := by
    rw [hc]
    exact Bool.false_ne_true
  -- Characters are cut off at the end, so that is where the induction takes them.
  induction rest using List.reverseRecOn with
  | nil => exact List.rdropWhile_concat_neg p front c hkeep
  | append_singleton rest d ih =>
      rw [← List.cons_append, ← List.append_assoc]
      by_cases hd : p d = true
      · rw [List.rdropWhile_concat_pos _ _ _ hd, List.rdropWhile_concat_pos _ _ _ hd, ih]
      · rw [List.rdropWhile_concat_neg _ _ _ hd, List.rdropWhile_concat_neg _ _ _ hd,
          List.append_assoc, List.cons_append]

end Text

namespace Token

theorem isBlank_of_blanks {ws : List Char} (hws : Blanks ws) :
    ∀ c ∈ ws, Text.isBlank c = true := fun c hc => Text.isBlank_of_isSpace (hws c hc)

theorem spelled_dropWhile {cs : List Char} {tokens : List Token} (h : Spelled cs tokens) :
    Spelled (cs.dropWhile Text.isBlank) tokens := by
  cases h with
  | nil hws =>
      rw [List.dropWhile_eq_nil_iff.mpr (isBlank_of_blanks hws)]
      exact .nil (List.forall_mem_nil _)
  | @cons ws cs rest token tokens hws hw hrest =>
      rcases (ends_of_written hw).1 with ⟨c, tail, hcs, hc⟩
      have hkeep : (cs ++ rest).dropWhile Text.isBlank = cs ++ rest := by
        rw [hcs, List.cons_append, List.dropWhile_cons_of_neg]
        rw [hc]
        exact Bool.false_ne_true
      rw [List.dropWhile_append_of_pos (isBlank_of_blanks hws), hkeep]
      exact .cons (List.forall_mem_nil _) hw hrest

theorem spelled_rdropWhile {cs : List Char} {tokens : List Token} (h : Spelled cs tokens) :
    Spelled (cs.rdropWhile Text.isBlank) tokens := by
  induction h with
  | nil hws =>
      rw [List.rdropWhile_eq_nil_iff.mpr (isBlank_of_blanks hws)]
      exact .nil (List.forall_mem_nil _)
  | @cons ws cs rest token tokens hws hw hrest ih =>
      rcases (ends_of_written hw).2 with ⟨front, c, hcs, hc⟩
      -- The symbol ends in a character that stays, so the cut is behind it.
      have hkeep : (ws ++ (cs ++ rest)).rdropWhile Text.isBlank =
          ws ++ (cs ++ rest.rdropWhile Text.isBlank) := by
        have hcut := Text.rdropWhile_append_cons hc (ws ++ front) rest
        rw [hcs]
        simp only [List.append_assoc, List.cons_append, List.nil_append] at hcut ⊢
        exact hcut
      rw [hkeep]
      exact .cons hws hw ih

/-- The blanks around a spelled text can be cut off. -/
theorem spelled_trim {cs : List Char} {tokens : List Token} (h : Spelled cs tokens) :
    Spelled (Text.trim cs) tokens := spelled_rdropWhile (spelled_dropWhile h)

end Token

theorem Condition.written_iff {cs : List Char}
    (hstart : ∀ ws rest, cs = ws ++ rest → Blanks ws → ws = []) (condition : Condition) :
    condition.Written cs ↔ (Token.scan? cs).bind ofTokens? = some condition := by
  constructor
  · intro h
    rcases ofTokens?_of_written h with ⟨tokens, hspelled, hapart, hread⟩
    rw [Token.scan?_of_spelled hspelled hapart]
    exact hread
  · intro h
    rcases Option.bind_eq_some_iff.mp h with ⟨tokens, hscan, hread⟩
    exact written_of_ofTokens? hstart (Token.spelled_of_scan? hscan) hread

theorem Condition.parse?_eq_some_iff (text : String) (condition : Condition) :
    parse? text = some condition ↔
      ((Text.trim text.toList = [] ∨ Text.trim text.toList = ['-']) ∧ condition = .any) ∨
        condition.Written (Text.trim text.toList) := by
  have hwritten : condition.Written (Text.trim text.toList) ↔ _ :=
    written_iff (fun _ _ h => Text.eq_nil_of_trim_eq_append h) condition
  unfold parse?
  generalize Text.trim text.toList = cs at hwritten ⊢
  rw [hwritten]
  -- The two texts that test nothing are not derived, so each text has one reading.
  split
  · have hnone : (Token.scan? []).bind ofTokens? = none := by
      rw [Token.scan?_of_blanks (List.forall_mem_nil _)]
      rfl
    rw [hnone, Option.some.injEq]
    simp only [true_and, reduceCtorEq, or_false, eq_comm]
  · have hnone : (Token.scan? ['-']).bind ofTokens? = none := by
      rw [Token.scan?]
      rfl
    rw [hnone, Option.some.injEq]
    simp only [or_true, true_and, reduceCtorEq, or_false, eq_comm]
  · rename_i hempty hminus
    have hne : ¬ (cs = [] ∨ cs = ['-']) := fun h => h.elim hempty hminus
    simp only [hne, false_and, false_or]

/-- A cell denotes the condition that the symbols in it make up. -/
theorem Condition.parse?_of_spelled {text : String} {tokens : List Token} {condition : Condition}
    (hspelled : Token.Spelled text.toList tokens) (hapart : Token.Apart tokens)
    (h : ofTokens? tokens = some condition) : parse? text = some condition := by
  have hread : (Token.scan? (Text.trim text.toList)).bind ofTokens? = some condition := by
    rw [Token.scan?_of_spelled (Token.spelled_trim hspelled) hapart]
    exact h
  exact (parse?_eq_some_iff text condition).mpr
    (Or.inr ((written_iff (fun _ _ h => Text.eq_nil_of_trim_eq_append h) condition).mpr hread))

theorem Operand.written_iff {cs : List Char}
    (hstart : ∀ ws rest, cs = ws ++ rest → Blanks ws → ws = [])
    (hend : ∀ rest ws, cs = rest ++ ws → Blanks ws → ws = []) (operand : Operand) :
    operand.Written cs ↔ Token.scan? cs = some [.operand operand] := by
  constructor
  · intro h
    exact Token.scan?_of_spelled (Token.spelled_of_written (.operand h)) (List.isChain_singleton _)
  · intro h
    rcases Token.spelled_cons_split (Token.spelled_of_scan? h) with ⟨w₁, written, w₂, rfl, h₁, hw,
      hrest⟩
    have h₂ := Token.blanks_of_spelled hrest
    rw [← List.append_assoc] at hend
    rw [hend _ _ rfl h₂, hstart _ _ rfl h₁, List.append_nil, List.nil_append]
    cases hw with
    | operand hw => exact hw

theorem Operand.parse?_eq_some_iff (text : String) (operand : Operand) :
    parse? text = some operand ↔
      (Text.trim text.toList = [] ∧ operand = .literal .null) ∨
        operand.Written (Text.trim text.toList) := by
  have hwritten : operand.Written (Text.trim text.toList) ↔ _ :=
    written_iff (fun _ _ h => Text.eq_nil_of_trim_eq_append h)
      (fun _ _ h => Text.eq_nil_of_trim_eq_append_right h) operand
  unfold parse?
  generalize Text.trim text.toList = cs at hwritten ⊢
  rw [hwritten]
  split
  · rw [Token.scan?_of_blanks (List.forall_mem_nil _), Option.some.injEq]
    simp only [true_and, Option.some.injEq, reduceCtorEq, or_false, eq_comm]
  · rename_i hempty
    have hne : ¬ cs = [] := hempty
    simp only [hne, false_and, false_or]
    split
    · rename_i found hscan
      rw [hscan]
      simp only [Option.some.injEq, List.cons.injEq, Token.operand.injEq, and_true]
    · rename_i hscan
      simp only [reduceCtorEq, false_iff]
      exact hscan operand

theorem Operand.parse?_of_spelled {text : String} {operand : Operand}
    (h : Token.Spelled text.toList [.operand operand]) : parse? text = some operand := by
  have hread : Token.scan? (Text.trim text.toList) = some [.operand operand] :=
    Token.scan?_of_spelled (Token.spelled_trim h) (List.isChain_singleton _)
  exact (parse?_eq_some_iff text operand).mpr
    (Or.inr ((written_iff (fun _ _ h => Text.eq_nil_of_trim_eq_append h)
      (fun _ _ h => Text.eq_nil_of_trim_eq_append_right h) operand).mpr hread))

/-- The reader of input cells accepts the texts that are conditions by the
    grammar, as what they are by the grammar, and the reader of output cells
    does so for operands. The blanks around a cell do not count. -/
theorem parse?_iff_written (text : String) :
    (∀ condition, Condition.parse? text = some condition ↔
      ((Text.trim text.toList = [] ∨ Text.trim text.toList = ['-']) ∧ condition = .any) ∨
        condition.Written (Text.trim text.toList)) ∧
    (∀ operand, Operand.parse? text = some operand ↔
      (Text.trim text.toList = [] ∧ operand = .literal .null) ∨
        operand.Written (Text.trim text.toList)) :=
  ⟨Condition.parse?_eq_some_iff text, Operand.parse?_eq_some_iff text⟩

end Decision
