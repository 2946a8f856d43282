import Decision.Condition.Operand
import Decision.Text.Blank

/-!
# Symbols of a Condition

A cell as a list of symbols: operands, relation signs, brackets, the two points
of a range, and commas.

Blanks may stand anywhere between two symbols and are never needed. A whole
operand is one symbol, so what stands inside the quotes of a string can not be
taken for a comma or a bracket, and the grammar on top of this needs no
characters at all.

The recursion is on the number of characters left. `next?_length` says that
every symbol takes at least one.

## Main definitions

* `Token`: A symbol.
* `Token.next?`: The symbol at the start of a text.
* `Token.scan?`: All symbols of a text.

## Theorems

* `next?_length`: A symbol takes at least one character.
-/

namespace Decision

/-- A symbol of a condition. -/
inductive Token where
  | operand (operand : Operand)
  | relation (relation : Relation)
  | squareOpen
  | squareClose
  | roundOpen
  | roundClose
  /-- The two points between the bounds of a range. -/
  | dots
  | comma
deriving DecidableEq

namespace Token

/-- The symbol at the start of a text, and what follows it. -/
def next? : List Char → Option (Token × List Char)
  | '<' :: '=' :: rest => some (.relation .atMost, rest)
  | '>' :: '=' :: rest => some (.relation .atLeast, rest)
  | '<' :: rest => some (.relation .below, rest)
  | '>' :: rest => some (.relation .above, rest)
  | '[' :: rest => some (.squareOpen, rest)
  | ']' :: rest => some (.squareClose, rest)
  | '(' :: rest => some (.roundOpen, rest)
  | ')' :: rest => some (.roundClose, rest)
  | ',' :: rest => some (.comma, rest)
  | '.' :: '.' :: rest => some (.dots, rest)
  | cs => (Operand.read? cs).map fun (found, rest) => (.operand found, rest)

/-- A symbol takes at least one character. -/
theorem next?_length {cs rest : List Char} {token : Token} (h : next? cs = some (token, rest)) :
    rest.length < cs.length := by
  unfold next? at h
  split at h
  case h_11 =>
    rcases Option.map_eq_some_iff.mp h with ⟨⟨found, rest'⟩, hr, he⟩
    cases he
    exact Operand.read?_length hr
  all_goals
    cases h
    simp only [List.length_cons]
    omega

/-- A text without the blanks at its start. -/
def skipSpace (cs : List Char) : List Char := cs.dropWhile Text.isSpace

theorem skipSpace_length (cs : List Char) : (skipSpace cs).length ≤ cs.length :=
  Operand.length_dropWhile_le _ cs

/-- All symbols of a text, if it is made of symbols and blanks. -/
def scan? (cs : List Char) : Option (List Token) :=
  if (skipSpace cs).isEmpty then some []
  else
    match h : next? (skipSpace cs) with
    | none => none
    | some (token, rest) =>
        have := Nat.lt_of_lt_of_le (next?_length h) (skipSpace_length cs)
        (scan? rest).map (token :: ·)
termination_by cs.length

end Token

end Decision
