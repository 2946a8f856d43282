import Decision.Condition.Syntax
import Decision.Numeral.Double

/-!
# Operands in Text

How a literal or a name is written in a cell.

Each reader takes the characters from some point on and gives back what it
read together with the characters it left. A number and a name take as much as
they can, and the one place where that could go wrong is the point: the two
points of a range may follow a number or a name directly. So a point belongs to
a number only if a digit follows it, and to a name only if another segment
does.

A number without a point is an integer and has to fit 64 bits. One with a
point is the nearest double, whatever its size.

In a string four escapes have a meaning. A backslash before any other
character stands for itself, and so does that character.

## Main definitions

* `Operand.readString?`: The characters up to the closing quote.
* `Operand.readNumber?`: An integer or a double.
* `Operand.readName?`: A name of one or more segments.
* `Operand.read?`: An operand at the start of a text.

## Theorems

* `read?_length`: An operand takes at least one character.
-/

namespace Decision

namespace Operand

/-! ## Strings -/

/-- What a backslash and the character after it stand for. -/
def unescape : Char → List Char
  | '"' => ['"']
  | '\\' => ['\\']
  | 'n' => ['\n']
  | 't' => ['\t']
  | c => ['\\', c]

/-- The content of a string up to its closing quote, and what follows that. -/
def readString? : List Char → Option (List Char × List Char)
  | [] => none
  | '"' :: rest => some ([], rest)
  | '\\' :: [] => none
  | '\\' :: c :: rest =>
      (readString? rest).map fun (content, after) => (unescape c ++ content, after)
  | c :: rest => (readString? rest).map fun (content, after) => (c :: content, after)

/-! ## Numbers -/

/-- The minus sign in front of a number, and what follows it. -/
def readMinus : List Char → List Char × List Char
  | '-' :: rest => (['-'], rest)
  | rest => ([], rest)

/-- The point of a number with the digits after it, and what follows them. A
    point without a digit after it is not part of the number. -/
def readFraction : List Char → List Char × List Char
  | '.' :: rest =>
      if (Numeral.leadingDigits rest).isEmpty then ([], '.' :: rest)
      else ('.' :: Numeral.leadingDigits rest, Numeral.afterDigits rest)
  | rest => ([], rest)

/-- A number at the start of a text, and what follows it. -/
def readNumber? (cs : List Char) : Option (Value × List Char) :=
  let (minus, unsigned) := readMinus cs
  let whole := Numeral.leadingDigits unsigned
  let (fraction, rest) := readFraction (Numeral.afterDigits unsigned)
  if whole.isEmpty then none
  else if fraction.isEmpty then
    (Numeral.readInteger (minus ++ whole)).toOption.map fun n => (.int n, rest)
  else
    (Numeral.readDouble (minus ++ whole ++ fraction)).toOption.map fun x => (.float x, rest)

/-! ## Names -/

/-- Whether a segment of a name can start with a character. -/
def isNameStart (c : Char) : Bool := c.isAlpha || c == '_'

/-- Whether a segment of a name can go on with a character. -/
def isNamePart (c : Char) : Bool := c.isAlphanum || c == '_'

/-- The rest of a name after its first character, and what follows the name. -/
def readNameTail : List Char → List Char × List Char
  | [] => ([], [])
  | '.' :: [] => ([], ['.'])
  | '.' :: c :: rest =>
      if isNameStart c then
        let (tail, after) := readNameTail rest
        ('.' :: c :: tail, after)
      else ([], '.' :: c :: rest)
  | c :: rest =>
      if isNamePart c then
        let (tail, after) := readNameTail rest
        (c :: tail, after)
      else ([], c :: rest)

/-- A name at the start of a text, and what follows it. -/
def readName? : List Char → Option (List Char × List Char)
  | [] => none
  | c :: rest =>
      if isNameStart c then
        let (tail, after) := readNameTail rest
        some (c :: tail, after)
      else none

/-- The operand that a name stands for. Three names are literals. -/
def ofName : String → Operand
  | "true" => .literal (.bool true)
  | "false" => .literal (.bool false)
  | "null" => .literal .null
  | name => .named name

/-! ## Operands -/

/-- An operand at the start of a text, and what follows it. -/
def read? : List Char → Option (Operand × List Char)
  | '"' :: cs =>
      (readString? cs).map fun (content, rest) => (.literal (.string (String.ofList content)), rest)
  | cs =>
      match readNumber? cs with
      | some (value, rest) => some (.literal value, rest)
      | none => (readName? cs).map fun (name, rest) => (ofName (String.ofList name), rest)

/-! ## What is left is shorter -/

theorem readString?_length {cs content rest : List Char}
    (h : readString? cs = some (content, rest)) : rest.length < cs.length := by
  fun_induction readString? cs generalizing content rest with
  | case1 => cases h
  | case2 =>
      cases h
      exact Nat.lt_succ_self _
  | case3 => cases h
  | case4 c r ih =>
      rcases Option.map_eq_some_iff.mp h with ⟨⟨content', rest'⟩, hr, he⟩
      cases he
      exact Nat.lt_succ_of_lt (Nat.lt_succ_of_lt (ih hr))
  | case5 c r _ _ _ ih =>
      rcases Option.map_eq_some_iff.mp h with ⟨⟨content', rest'⟩, hr, he⟩
      cases he
      exact Nat.lt_succ_of_lt (ih hr)

theorem length_dropWhile_le (p : Char → Bool) (cs : List Char) :
    (cs.dropWhile p).length ≤ cs.length := (List.dropWhile_suffix p).length_le

theorem readFraction_length (cs : List Char) : (readFraction cs).2.length ≤ cs.length := by
  unfold readFraction
  split
  · split
    · exact Nat.le_refl _
    · next rest _ => exact Nat.le_succ_of_le (length_dropWhile_le Char.isDigit rest)
  · exact Nat.le_refl _

theorem readNumber?_length {cs rest : List Char} {value : Value}
    (h : readNumber? cs = some (value, rest)) : rest.length < cs.length := by
  have hminus : (readMinus cs).2.length ≤ cs.length := by
    unfold readMinus
    split
    · exact Nat.le_succ _
    · exact Nat.le_refl _
  have hwhole : (Numeral.leadingDigits (readMinus cs).2).isEmpty = false →
      (Numeral.afterDigits (readMinus cs).2).length < (readMinus cs).2.length := by
    intro hne
    have hlen := congrArg List.length
      (List.takeWhile_append_dropWhile (p := Char.isDigit) (l := (readMinus cs).2))
    have hpos : 0 < (Numeral.leadingDigits (readMinus cs).2).length :=
      List.length_pos_iff.mpr (List.isEmpty_eq_false_iff.mp hne)
    simp only [Numeral.leadingDigits, Numeral.afterDigits, List.length_append] at hlen hpos ⊢
    omega
  have hfraction := readFraction_length (Numeral.afterDigits (readMinus cs).2)
  simp only [readNumber?] at h
  -- There are digits to take, and neither the sign nor the fraction gives any back.
  split at h
  · cases h
  · next hne =>
      have hshorter := hwhole (Bool.eq_false_iff.mpr hne)
      have hrest : (readFraction (Numeral.afterDigits (readMinus cs).2)).2 = rest := by
        split at h <;> rcases Option.map_eq_some_iff.mp h with ⟨_, _, he⟩ <;>
          exact (Prod.mk.inj he).2
      rw [← hrest]
      omega

theorem readNameTail_length (cs : List Char) : (readNameTail cs).2.length ≤ cs.length := by
  fun_induction readNameTail cs with
  | case1 => exact Nat.le_refl _
  | case2 => exact Nat.le_refl _
  | case3 c rest _ _ _ htail ih =>
      rw [htail] at ih
      exact Nat.le_succ_of_le (Nat.le_succ_of_le ih)
  | case4 => exact Nat.le_refl _
  | case5 c rest _ _ _ _ _ htail ih =>
      rw [htail] at ih
      exact Nat.le_succ_of_le ih
  | case6 => exact Nat.le_refl _

theorem readName?_length {cs name rest : List Char} (h : readName? cs = some (name, rest)) :
    rest.length < cs.length := by
  cases cs with
  | nil => cases h
  | cons c cs =>
      have := readNameTail_length cs
      simp only [readName?] at h
      split at h
      · rcases Prod.mk.inj (Option.some.inj h) with ⟨_, rfl⟩
        exact Nat.lt_succ_of_le this
      · cases h

/-- An operand takes at least one character. -/
theorem read?_length {cs rest : List Char} {operand : Operand}
    (h : read? cs = some (operand, rest)) : rest.length < cs.length := by
  unfold read? at h
  split at h
  · rcases Option.map_eq_some_iff.mp h with ⟨⟨content, rest'⟩, hr, he⟩
    cases he
    exact Nat.lt_succ_of_lt (readString?_length hr)
  · split at h
    · next hr =>
        cases h
        exact readNumber?_length hr
    · rcases Option.map_eq_some_iff.mp h with ⟨⟨name, rest'⟩, hr, he⟩
      cases he
      exact readName?_length hr

end Operand

end Decision
