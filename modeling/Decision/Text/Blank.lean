/-!
# Blank Characters

Two sets of blank characters appear in this library, and they differ.

Whatever a person typed around a cell, a number or a policy name is cut off by
`trim`, and there a blank is any character that the character standard counts
as white space. Inside a condition only the five blanks of `isSpace` may stand
between two symbols. A no-break space is therefore harmless at the end of a
cell and an error in the middle of one.

Both are predicates on characters, and `trim` works on lists of characters, so
that the readers built on it stay structural.

## Main definitions

* `isBlank`: White space as the character standard has it.
* `isSpace`: The blanks that may separate the symbols of a condition.
* `trim`: A text without the blanks at its ends.

## Theorems

* `isBlank_of_isSpace`: The second set is part of the first.
* `trim_eq_self`: A text with no blank at either end is not changed.
-/

namespace Decision

namespace Text

/-- White space as the character standard has it. -/
def isBlank (c : Char) : Bool :=
  let n := c.toNat
  (9 ≤ n && n ≤ 13) || n == 0x20 || n == 0x85 || n == 0xA0 || n == 0x1680 ||
    (0x2000 ≤ n && n ≤ 0x200A) || n == 0x2028 || n == 0x2029 || n == 0x202F ||
    n == 0x205F || n == 0x3000

/-- Space, tab, line feed, form feed and carriage return: the blanks that may
    separate the symbols of a condition. -/
def isSpace (c : Char) : Bool :=
  c == ' ' || c == '\t' || c == '\n' || c == '\x0c' || c == '\r'

theorem isBlank_of_isSpace {c : Char} (h : isSpace c = true) : isBlank c = true := by
  simp only [isSpace, Bool.or_eq_true, beq_iff_eq] at h
  rcases h with (((h | h) | h) | h) | h <;> subst h <;> decide

/-- A text without the blanks at its ends. -/
def trim (cs : List Char) : List Char :=
  ((cs.dropWhile isBlank).reverse.dropWhile isBlank).reverse

/-- A text with no blank at either end is not changed by `trim`. -/
theorem trim_eq_self {cs : List Char} (first : ∀ c ∈ cs.head?, isBlank c = false)
    (last : ∀ c ∈ cs.getLast?, isBlank c = false) : trim cs = cs := by
  -- Nothing is dropped from an end that starts with a character that stays.
  have keep : ∀ l : List Char, (∀ c ∈ l.head?, isBlank c = false) →
      l.dropWhile isBlank = l := by
    intro l h
    cases l with
    | nil => rfl
    | cons c l =>
        have hc : isBlank c = false := h c rfl
        exact List.dropWhile_cons_of_neg (hc ▸ Bool.false_ne_true)
  rw [trim, keep cs first, keep cs.reverse, List.reverse_reverse]
  -- The other end is the first one of the reversed text.
  intro c hc
  rw [List.head?_reverse] at hc
  exact last c hc

end Text

end Decision
