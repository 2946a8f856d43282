import Decision.Condition.Reading

/-!
# The Grammar of Conditions

Which texts are conditions, and which condition each of them is, without a word
on how they are read.

A derivation puts a text together from pieces. It does not look ahead, it has no
order of alternatives, and nothing in it takes as much as it can: `12` is a run
of digits whatever stands behind it. That reading nevertheless finds every
derivation is for the proofs about the reader to show.

Every relation has the written text first and what it stands for second. A text
is a list of characters, and blanks are the five of `Text.isSpace`. They belong
to the rules that allow them and never to an operand or a test, so a test starts
and ends with a character that counts.

A number without a point is written only if some 64-bit integer is the number
that the digits denote. One with a point has no such limit: it is the double
nearest to what the digits denote.

## Main definitions

* `Blanks`: A run of blanks.
* `Quoted`: The inside of a string.
* `Segment`, `Name`: A name of one or more segments.
* `Operand.Written`: A literal or a name.
* `Test.Written`: A single test.
* `Test.WrittenList`: Tests with commas between them.
* `Condition.Written`: A whole condition.
-/

namespace Decision

/-- A run of blanks, which may be empty. -/
def Blanks (cs : List Char) : Prop := ∀ c ∈ cs, Text.isSpace c = true

/-! ## Operands -/

/-- The text between the quotes of a string, and the string. -/
inductive Quoted : List Char → List Char → Prop where
  | nil : Quoted [] []
  | plain {c : Char} {cs content : List Char} (hquote : c ≠ '"') (hslash : c ≠ '\\')
      (h : Quoted cs content) : Quoted (c :: cs) (c :: content)
  | quote {cs content : List Char} (h : Quoted cs content) :
      Quoted ('\\' :: '"' :: cs) ('"' :: content)
  | slash {cs content : List Char} (h : Quoted cs content) :
      Quoted ('\\' :: '\\' :: cs) ('\\' :: content)
  | newline {cs content : List Char} (h : Quoted cs content) :
      Quoted ('\\' :: 'n' :: cs) ('\n' :: content)
  | tab {cs content : List Char} (h : Quoted cs content) :
      Quoted ('\\' :: 't' :: cs) ('\t' :: content)
  /-- Before any other character a backslash stands for itself. -/
  | kept {c : Char} {cs content : List Char} (hc : c ∉ ['"', '\\', 'n', 't'])
      (h : Quoted cs content) : Quoted ('\\' :: c :: cs) ('\\' :: c :: content)

/-- A segment of a name: a letter or an underscore, then letters, digits and
    underscores. -/
def Segment (cs : List Char) : Prop :=
  ∃ c rest, cs = c :: rest ∧ Operand.isNameStart c = true ∧
    ∀ d ∈ rest, Operand.isNamePart d = true

/-- Segments with a point between any two of them. -/
inductive Name : List Char → Prop where
  | segment {cs : List Char} (h : Segment cs) : Name cs
  | dotted {cs rest : List Char} (h : Segment cs) (hrest : Name rest) : Name (cs ++ '.' :: rest)

/-- At least one digit. -/
def Digits (cs : List Char) : Prop := cs ≠ [] ∧ ∀ c ∈ cs, c.isDigit = true

/-- An optional minus sign, and whether it is there. -/
inductive Minus : List Char → Bool → Prop where
  | absent : Minus [] false
  | present : Minus ['-'] true

/-- The names that are literals. -/
def reserved : List (List Char) := ["true".toList, "false".toList, "null".toList]

/-- A literal or a name, and the operand it is. -/
inductive Operand.Written : List Char → Operand → Prop where
  | string {cs content : List Char} (h : Quoted cs content) :
      Written ('"' :: (cs ++ ['"'])) (.literal (.string (String.ofList content)))
  | int {minus digits : List Char} {negative : Bool} {n : Int64} (hminus : Minus minus negative)
      (hdigits : Digits digits)
      (hn : n.toInt = if negative then -(Nat.ofDigitChars 10 digits 0 : Int)
        else (Nat.ofDigitChars 10 digits 0 : Int)) :
      Written (minus ++ digits) (.literal (.int n))
  | float {minus whole fraction : List Char} {negative : Bool} (hminus : Minus minus negative)
      (hwhole : Digits whole) (hfraction : Digits fraction) :
      Written (minus ++ whole ++ '.' :: fraction) (.literal (.float (.ofDecimal negative
        ⟨Nat.ofDigitChars 10 (whole ++ fraction) 0, -fraction.length⟩)))
  | true : Written "true".toList (.literal (.bool true))
  | false : Written "false".toList (.literal (.bool false))
  | null : Written "null".toList (.literal .null)
  | named {cs : List Char} (h : Name cs) (hfree : cs ∉ reserved) :
      Written cs (.named (String.ofList cs))

/-! ## Tests -/

/-- The signs of the four order relations. -/
inductive Relation.Written : List Char → Relation → Prop where
  | below : Written ['<'] .below
  | atMost : Written ['<', '='] .atMost
  | above : Written ['>'] .above
  | atLeast : Written ['>', '='] .atLeast

/-- The brackets that open a range, and whether the bound belongs to it. -/
inductive Opening : Char → Bool → Prop where
  | square : Opening '[' true
  | round : Opening '(' false
  | turned : Opening ']' false

/-- The brackets that close a range, and whether the bound belongs to it. -/
inductive Closing : Char → Bool → Prop where
  | square : Closing ']' true
  | round : Closing ')' false
  | turned : Closing '[' false

/-- A single test. -/
inductive Test.Written : List Char → Test → Prop where
  | equal {cs : List Char} {operand : Operand} (h : operand.Written cs) :
      Written cs (.compare .equal operand)
  | compare {sign ws cs : List Char} {relation : Relation} {operand : Operand}
      (hsign : relation.Written sign) (hws : Blanks ws) (h : operand.Written cs) :
      Written (sign ++ ws ++ cs) (.compare relation operand)
  | between {opening closing : Char} {w₁ w₂ w₃ w₄ lows highs : List Char} {low high : Bound}
      (hopening : Opening opening low.inclusive) (h₁ : Blanks w₁) (hlow : low.operand.Written lows)
      (h₂ : Blanks w₂) (h₃ : Blanks w₃) (hhigh : high.operand.Written highs) (h₄ : Blanks w₄)
      (hclosing : Closing closing high.inclusive) :
      Written (opening :: (w₁ ++ lows ++ w₂ ++ ['.', '.'] ++ w₃ ++ highs ++ w₄ ++ [closing]))
        (.between low high)

/-- Tests with commas between them. -/
inductive Test.WrittenList : List Char → List Test → Prop where
  | one {ws cs : List Char} {test : Test} (hws : Blanks ws) (h : test.Written cs) :
      WrittenList (ws ++ cs) [test]
  | more {ws cs ws' rest : List Char} {test : Test} {tests : List Test} (hws : Blanks ws)
      (h : test.Written cs) (hws' : Blanks ws') (hrest : WrittenList rest tests) :
      WrittenList (ws ++ cs ++ ws' ++ ',' :: rest) (test :: tests)

/-! ## Conditions -/

/-- A condition that tests something. -/
inductive Condition.Written : List Char → Condition → Prop where
  | anyOf {cs ws : List Char} {tests : List Test} (h : Test.WrittenList cs tests)
      (hws : Blanks ws) : Written (cs ++ ws) (.anyOf tests)
  | noneOf {w₁ cs w₂ w₃ : List Char} {tests : List Test} (h₁ : Blanks w₁)
      (h : Test.WrittenList cs tests) (h₂ : Blanks w₂) (h₃ : Blanks w₃) :
      Written ("not".toList ++ w₁ ++ '(' :: (cs ++ w₂ ++ ')' :: w₃)) (.noneOf tests)

end Decision
