import Decision.Condition.Token

/-!
# Reading Conditions

The condition that the text of an input cell denotes, and the operand that the
text of an output cell denotes.

The tests of a cell are separated by commas, and no test has a comma among its
own symbols. So the list of symbols is cut at the commas and each piece has to
be one whole test. A piece is short enough to be looked at as a whole: one
symbol, two or five. Nothing in the grammar has to be tried and taken back.

A negation is recognised by its first two symbols. The name `not` followed by
an opening bracket can be nothing else, since no test consists of a name and a
bracket; without the bracket, `not` is a name like any other.

Blanks around a cell do not count. A cell that is empty then tests nothing, and
so does a lone minus sign; an empty output cell produces null.

## Main definitions

* `Test.ofTokens?`: The test that some symbols make up.
* `Condition.ofTokens?`: The condition that some symbols make up.
* `Condition.parse?`: The condition that a text denotes.
* `Operand.parse?`: The operand that a text denotes.
-/

namespace Decision

/-- Whether the bound after an opening bracket belongs to the range. The
    closing square bracket opens a range too and leaves the bound out. -/
def Token.opens? : Token → Option Bool
  | .squareOpen => some true
  | .roundOpen => some false
  | .squareClose => some false
  | _ => none

/-- Whether the bound before a closing bracket belongs to the range. -/
def Token.closes? : Token → Option Bool
  | .squareClose => some true
  | .roundClose => some false
  | .squareOpen => some false
  | _ => none

/-- The test that some symbols make up. An operand alone asks for equality. -/
def Test.ofTokens? : List Token → Option Test
  | [.operand operand] => some (.compare .equal operand)
  | [.relation relation, .operand operand] => some (.compare relation operand)
  | [opening, .operand low, .dots, .operand high, closing] => do
      let lowInclusive ← opening.opens?
      let highInclusive ← closing.closes?
      return .between ⟨low, lowInclusive⟩ ⟨high, highInclusive⟩
  | _ => none

/-- The pieces between the commas. -/
def Token.splitAtCommas : List Token → List (List Token)
  | [] => [[]]
  | .comma :: rest => [] :: splitAtCommas rest
  | token :: rest =>
      match splitAtCommas rest with
      | [] => [[token]]
      | piece :: pieces => (token :: piece) :: pieces

/-- The tests that some pieces make up, all of which have to be tests. -/
def Test.ofPieces? : List (List Token) → Option (List Test)
  | [] => some []
  | piece :: pieces => do
      let test ← ofTokens? piece
      let tests ← ofPieces? pieces
      return test :: tests

/-- The tests that some symbols with commas between them make up. -/
def Test.listOfTokens? (tokens : List Token) : Option (List Test) :=
  ofPieces? (Token.splitAtCommas tokens)

/-- What stands before the closing round bracket that ends a list of symbols. -/
def Token.beforeRoundClose? : List Token → Option (List Token)
  | [] => none
  | [.roundClose] => some []
  | token :: rest => (beforeRoundClose? rest).map (token :: ·)

namespace Condition

/-- The condition that some symbols make up. -/
def ofTokens? : List Token → Option Condition
  | .operand (.named "not") :: .roundOpen :: rest => do
      let inner ← Token.beforeRoundClose? rest
      let tests ← Test.listOfTokens? inner
      return .noneOf tests
  | tokens => (Test.listOfTokens? tokens).map .anyOf

/-- The condition that the text of an input cell denotes. -/
def parse? (text : String) : Option Condition :=
  match Text.trim text.toList with
  | [] => some .any
  | ['-'] => some .any
  | cs => (Token.scan? cs).bind ofTokens?

end Condition

/-- The operand that the text of an output cell denotes. -/
def Operand.parse? (text : String) : Option Operand :=
  match Text.trim text.toList with
  | [] => some (.literal .null)
  | cs =>
      match Token.scan? cs with
      | some [.operand operand] => some operand
      | _ => none

end Decision
