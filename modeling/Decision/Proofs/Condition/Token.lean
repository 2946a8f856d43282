import Decision.Proofs.Condition.Operand
import Mathlib.Data.List.Chain

/-!
# Reading Symbols

The list of symbols that is read from a text is the one that spells it.

A spelling puts the written forms of the symbols one behind the other, with or
without blanks in front of each and behind the last. A text can be spelled in
more than one way: `ab` is one name and it is also the name `a` and the name
`b`. The reader finds the first of these spellings. No test has two operands
side by side, so it is enough that the reader finds every spelling that has not
either, and of those a text has only one.

Apart from operands only the signs `<` and `>` are read differently by what
comes next, and no written symbol starts with `=`.

## Main definitions

* `Token.Written`: The written form of a symbol.
* `Token.Spelled`: The symbols that spell a text.
* `Token.Apart`: No two operands stand side by side.

## Theorems

* `ends_of_written`: Neither end of a symbol is white space.
* `spelled_of_scan?`: The symbols that are read spell the text.
* `scan?_of_spelled`: A spelling without operands side by side is what is read.
-/

namespace Decision

namespace Token

/-- The written form of a symbol, and the symbol. -/
inductive Written : List Char → Token → Prop where
  | operand {cs : List Char} {operand : Operand} (h : operand.Written cs) :
      Written cs (.operand operand)
  | relation {cs : List Char} {relation : Relation} (h : relation.Written cs) :
      Written cs (.relation relation)
  | squareOpen : Written ['['] .squareOpen
  | squareClose : Written [']'] .squareClose
  | roundOpen : Written ['('] .roundOpen
  | roundClose : Written [')'] .roundClose
  | dots : Written ['.', '.'] .dots
  | comma : Written [','] .comma

/-- A text with blanks and symbols, and the symbols. -/
inductive Spelled : List Char → List Token → Prop where
  | nil {ws : List Char} (hws : Blanks ws) : Spelled ws []
  | cons {ws cs rest : List Char} {token : Token} {tokens : List Token} (hws : Blanks ws)
      (h : token.Written cs) (hrest : Spelled rest tokens) :
      Spelled (ws ++ (cs ++ rest)) (token :: tokens)

/-- Whether a symbol is an operand. -/
def isOperand : Token → Bool
  | .operand _ => true
  | _ => false

/-- No two operands stand side by side. -/
def Apart (tokens : List Token) : Prop :=
  tokens.IsChain fun first second => first.isOperand = false ∨ second.isOperand = false

end Token

/-! ## The start of a symbol -/

/-- Whether an operand can start with a character. -/
def Operand.starts (c : Char) : Bool := c == '"' || c == '-' || c.isDigit || isNameStart c

theorem Digits.starts {cs : List Char} (h : Digits cs) :
    ∃ c tail, cs = c :: tail ∧ Operand.starts c = true := by
  cases cs with
  | nil => exact absurd rfl h.1
  | cons c tail =>
      refine ⟨c, tail, rfl, ?_⟩
      rw [Operand.starts, h.2 c List.mem_cons_self, Bool.or_true, Bool.true_or]

/-- With or without a minus sign, digits start like an operand. -/
theorem Minus.starts {minus digits : List Char} {negative : Bool}
    (hminus : Minus minus negative) (hdigits : Digits digits) (rest : List Char) :
    ∃ c tail, minus ++ digits ++ rest = c :: tail ∧ Operand.starts c = true := by
  cases hminus with
  | absent =>
      rcases hdigits.starts with ⟨c, tail, rfl, hc⟩
      exact ⟨c, tail ++ rest, rfl, hc⟩
  | present => exact ⟨'-', digits ++ rest, rfl, rfl⟩

theorem Name.starts {cs : List Char} (h : Name cs) :
    ∃ c tail, cs = c :: tail ∧ Operand.starts c = true := by
  have hstarts : ∀ c, Operand.isNameStart c = true → Operand.starts c = true := by
    intro c hc
    rw [Operand.starts, hc, Bool.or_true]
  cases h with
  | segment h =>
      rcases h with ⟨c, tail, rfl, hc, _⟩
      exact ⟨c, tail, rfl, hstarts c hc⟩
  | dotted h _ =>
      rcases h with ⟨c, tail, rfl, hc, _⟩
      exact ⟨c, _, rfl, hstarts c hc⟩

theorem Operand.starts_of_written {cs : List Char} {operand : Operand} (h : operand.Written cs) :
    ∃ c tail, cs = c :: tail ∧ Operand.starts c = true := by
  cases h with
  | string => exact ⟨'"', _, rfl, rfl⟩
  | int hminus hdigits =>
      rcases hminus.starts hdigits [] with ⟨c, tail, heq, hc⟩
      rw [List.append_nil] at heq
      exact ⟨c, tail, heq, hc⟩
  | float hminus hwhole => exact hminus.starts hwhole _
  | true => exact ⟨'t', _, rfl, rfl⟩
  | false => exact ⟨'f', _, rfl, rfl⟩
  | null => exact ⟨'n', _, rfl, rfl⟩
  | named h => exact h.starts

/-! ## The ends of a symbol -/

namespace Operand

/-- The characters of names stand between the digit zero and the last small letter. -/
theorem bounds_of_isNamePart {c : Char} (h : isNamePart c = true) :
    '0'.toNat ≤ c.toNat ∧ c.toNat ≤ 'z'.toNat := by
  unfold isNamePart Char.isAlphanum Char.isAlpha Char.isUpper Char.isLower Char.isDigit at h
  simp only [Bool.or_eq_true, Bool.and_eq_true, decide_eq_true_eq, beq_iff_eq, ge_iff_le,
    UInt32.le_iff_toNat_le] at h
  rcases h with ((⟨hlo, hhi⟩ | ⟨hlo, hhi⟩) | ⟨hlo, hhi⟩) | rfl
  · exact ⟨le_trans (by decide) hlo, le_trans hhi (by decide)⟩
  · exact ⟨le_trans (by decide) hlo, hhi⟩
  · exact ⟨hlo, le_trans hhi (by decide)⟩
  · decide

/-- No character of a name is white space. -/
theorem not_isBlank_of_isNamePart {c : Char} (h : isNamePart c = true) :
    Text.isBlank c = false := by
  have hbounds : 48 ≤ c.toNat ∧ c.toNat ≤ 122 := bounds_of_isNamePart h
  simp only [Text.isBlank, Bool.or_eq_false_iff, Bool.and_eq_false_iff, decide_eq_false_iff_not,
    beq_eq_false_iff_ne]
  omega

theorem not_isBlank_of_starts {c : Char} (h : starts c = true) : Text.isBlank c = false := by
  simp only [starts, Bool.or_eq_true, beq_iff_eq] at h
  rcases h with ((rfl | rfl) | hdigit) | hname
  · decide
  · decide
  · refine not_isBlank_of_isNamePart ?_
    rw [isNamePart, Char.isAlphanum, hdigit, Bool.or_true, Bool.true_or]
  · exact not_isBlank_of_isNamePart (isNamePart_of_isNameStart hname)

/-- What ends with characters of a name ends with one that is no white space. -/
theorem ends_of_forall_isNamePart {part : List Char} (hne : part ≠ [])
    (h : ∀ c ∈ part, isNamePart c = true) (start : List Char) :
    ∃ front c, start ++ part = front ++ [c] ∧ Text.isBlank c = false := by
  refine ⟨start ++ part.dropLast, part.getLast hne, ?_, ?_⟩
  · rw [List.append_assoc, List.dropLast_append_getLast]
  · exact not_isBlank_of_isNamePart (h _ (List.getLast_mem hne))

end Operand

theorem Digits.ends {cs : List Char} (h : Digits cs) (start : List Char) :
    ∃ front c, start ++ cs = front ++ [c] ∧ Text.isBlank c = false := by
  refine Operand.ends_of_forall_isNamePart h.1 (fun c hc => ?_) start
  rw [Operand.isNamePart, Char.isAlphanum, h.2 c hc, Bool.or_true, Bool.true_or]

theorem Segment.ends {cs : List Char} (h : Segment cs) (start : List Char) :
    ∃ front c, start ++ cs = front ++ [c] ∧ Text.isBlank c = false := by
  rcases h with ⟨c, rest, rfl, hc, hrest⟩
  refine Operand.ends_of_forall_isNamePart (List.cons_ne_nil c rest) (fun d hd => ?_) start
  rcases List.mem_cons.mp hd with rfl | hd
  · exact Operand.isNamePart_of_isNameStart hc
  · exact hrest d hd

theorem Name.ends {cs : List Char} (h : Name cs) (start : List Char) :
    ∃ front c, start ++ cs = front ++ [c] ∧ Text.isBlank c = false := by
  induction h generalizing start with
  | segment h => exact h.ends start
  | @dotted cs rest h _ ih =>
      have hends := ih (start ++ cs ++ ['.'])
      simp only [List.append_assoc, List.cons_append, List.nil_append] at hends
      exact hends

/-- An operand ends with a character that is no white space. -/
theorem Operand.ends_of_written {cs : List Char} {operand : Operand} (h : operand.Written cs) :
    ∃ front c, cs = front ++ [c] ∧ Text.isBlank c = false := by
  cases h with
  | @string cs _ h => exact ⟨'"' :: cs, '"', rfl, by decide⟩
  | @int minus _ _ _ _ hdigits => exact hdigits.ends minus
  | @float minus whole fraction _ _ _ hfraction =>
      have hends := hfraction.ends (minus ++ whole ++ ['.'])
      rw [List.append_assoc _ ['.']] at hends
      exact hends
  | true => exact (name_of_mem_reserved (by decide)).ends []
  | false => exact (name_of_mem_reserved (by decide)).ends []
  | null => exact (name_of_mem_reserved (by decide)).ends []
  | named h => exact h.ends []

namespace Token

/-- Neither end of a symbol is white space. -/
theorem ends_of_written {cs : List Char} {token : Token} (h : token.Written cs) :
    (∃ c tail, cs = c :: tail ∧ Text.isBlank c = false) ∧
      ∃ front c, cs = front ++ [c] ∧ Text.isBlank c = false := by
  cases h with
  | operand h =>
      rcases Operand.starts_of_written h with ⟨c, tail, heq, hc⟩
      exact ⟨⟨c, tail, heq, Operand.not_isBlank_of_starts hc⟩, Operand.ends_of_written h⟩
  | relation h =>
      cases h with
      | below => exact ⟨⟨'<', [], rfl, by decide⟩, [], '<', rfl, by decide⟩
      | above => exact ⟨⟨'>', [], rfl, by decide⟩, [], '>', rfl, by decide⟩
      | atMost => exact ⟨⟨'<', ['='], rfl, by decide⟩, ['<'], '=', rfl, by decide⟩
      | atLeast => exact ⟨⟨'>', ['='], rfl, by decide⟩, ['>'], '=', rfl, by decide⟩
  | dots => exact ⟨⟨'.', ['.'], rfl, by decide⟩, ['.'], '.', rfl, by decide⟩
  | _ => exact ⟨⟨_, [], rfl, by decide⟩, [], _, rfl, by decide⟩

/-- A symbol starts with a character that is neither a blank nor the second half
    of a sign. -/
theorem starts_of_written {cs : List Char} {token : Token} (h : token.Written cs) :
    ∃ c tail, cs = c :: tail ∧ Text.isSpace c = false ∧ c ≠ '=' := by
  cases h with
  | operand h =>
      rcases Operand.starts_of_written h with ⟨c, tail, heq, hc⟩
      refine ⟨c, tail, heq, ?_, ?_⟩
      · by_contra hspace
        simp only [Text.isSpace, Bool.not_eq_false, Bool.or_eq_true, beq_iff_eq] at hspace
        rcases hspace with (((rfl | rfl) | rfl) | rfl) | rfl <;> exact absurd hc (by decide)
      · rintro rfl
        exact absurd hc (by decide)
  | relation h => cases h <;> exact ⟨_, _, rfl, by decide, by decide⟩
  | _ => exact ⟨_, _, rfl, by decide, by decide⟩

/-! ## One symbol -/

theorem next?_of_starts {c : Char} (hc : Operand.starts c = true) (cs : List Char) :
    next? (c :: cs) =
      (Operand.read? (c :: cs)).map fun (found, rest) => (.operand found, rest) := by
  have hne : ∀ d, Operand.starts d = false → c ≠ d := by
    rintro d hd rfl
    rw [hc] at hd
    exact Bool.false_ne_true hd.symm
  rw [next?.eq_def]
  split
  case h_11 => rfl
  all_goals
    rename_i heq
    exact absurd (List.cons.inj heq).1 (hne _ rfl)

/-- A spelled text starts with a blank or with its first symbol. -/
theorem head_of_spelled {c : Char} {tail : List Char} {tokens : List Token}
    (h : Spelled (c :: tail) tokens) : Text.isSpace c = true ∨
      ∃ token tokens' cs rest, tokens = token :: tokens' ∧ c :: tail = cs ++ rest ∧
        token.Written cs := by
  -- The text is named, or its first character would not let the cases be told apart.
  generalize htext : c :: tail = text at h
  cases h with
  | nil hws =>
      left
      exact hws c (by rw [← htext]; exact List.mem_cons_self)
  | @cons ws cs rest token tokens' hws hw =>
      cases ws with
      | nil => exact Or.inr ⟨token, tokens', cs, rest, rfl, rfl, hw⟩
      | cons d ws =>
          left
          rw [(List.cons.inj htext).1]
          exact hws d List.mem_cons_self

theorem head_ne_of_spelled {cs : List Char} {tokens : List Token} (h : Spelled cs tokens)
    (tail : List Char) : cs ≠ '=' :: tail := by
  rintro rfl
  rcases head_of_spelled h with hspace | ⟨token, _, cs, rest, _, heq, hw⟩
  · exact absurd hspace (by decide)
  · rcases starts_of_written hw with ⟨c, after, rfl, _, hc⟩
    exact hc (List.cons.inj heq).1.symm

theorem stops_of_isSpace {c : Char} (hc : Text.isSpace c = true) (tail : List Char) :
    Operand.Stops (c :: tail) := by
  simp only [Text.isSpace, Bool.or_eq_true, beq_iff_eq] at hc
  rcases hc with (((rfl | rfl) | rfl) | rfl) | rfl <;> rfl

/-- No symbol but an operand extends the operand in front of it. -/
theorem stops_of_spelled {cs : List Char} {tokens : List Token} (h : Spelled cs tokens)
    (hne : ∀ token ∈ tokens.head?, token.isOperand = false) : Operand.Stops cs := by
  cases cs with
  | nil => trivial
  | cons c tail =>
      rcases head_of_spelled h with hspace | ⟨token, tokens', cs, rest, rfl, heq, hw⟩
      · exact stops_of_isSpace hspace tail
      · rw [heq]
        cases hw with
        | operand => exact absurd (hne _ rfl) Bool.true_eq_false.mp
        | relation hw => cases hw <;> rfl
        | _ => rfl

theorem next?_of_written {cs rest : List Char} {token : Token} {tokens : List Token}
    (h : token.Written cs) (hrest : Spelled rest tokens) (hapart : Apart (token :: tokens)) :
    next? (cs ++ rest) = some (token, rest) := by
  cases h with
  | operand h =>
      -- The next symbol is not an operand, and no other extends this one.
      have hstops : Operand.Stops rest := by
        refine stops_of_spelled hrest fun second hsecond => ?_
        cases tokens with
        | nil => exact absurd hsecond (by simp only [List.head?_nil, Option.mem_def, reduceCtorEq,
            not_false_eq_true])
        | cons second' tokens =>
            rw [← Option.some.inj hsecond]
            rcases (List.isChain_cons_cons.mp hapart).1 with hfirst | hsecond
            · exact absurd hfirst.symm Bool.false_ne_true
            · exact hsecond
      rcases Operand.starts_of_written h with ⟨c, tail, rfl, hc⟩
      have hread := Operand.read?_of_written h hstops
      rw [List.cons_append] at hread ⊢
      rw [next?_of_starts hc, hread]
      rfl
  | relation h =>
      -- A sign of one character is not the start of a longer one.
      have hne := head_ne_of_spelled hrest
      cases h with
      | below =>
          rw [List.singleton_append, next?]
          exact hne
      | above =>
          rw [List.singleton_append, next?]
          exact hne
      | atMost => rfl
      | atLeast => rfl
  | _ => rfl

theorem written_of_next? {cs rest : List Char} {token : Token}
    (h : next? cs = some (token, rest)) :
    ∃ written, cs = written ++ rest ∧ token.Written written := by
  unfold next? at h
  split at h
  case h_11 =>
    rcases Option.map_eq_some_iff.mp h with ⟨⟨operand, after⟩, hread, heq⟩
    rcases Prod.mk.inj heq with ⟨rfl, rfl⟩
    rcases Operand.written_of_read? hread with ⟨written, hcs, hw⟩
    exact ⟨written, hcs, .operand hw⟩
  all_goals rcases Prod.mk.inj (Option.some.inj h) with ⟨rfl, rfl⟩
  · exact ⟨['<', '='], rfl, .relation .atMost⟩
  · exact ⟨['>', '='], rfl, .relation .atLeast⟩
  · exact ⟨['<'], rfl, .relation .below⟩
  · exact ⟨['>'], rfl, .relation .above⟩
  · exact ⟨['['], rfl, .squareOpen⟩
  · exact ⟨[']'], rfl, .squareClose⟩
  · exact ⟨['('], rfl, .roundOpen⟩
  · exact ⟨[')'], rfl, .roundClose⟩
  · exact ⟨[','], rfl, .comma⟩
  · exact ⟨['.', '.'], rfl, .dots⟩

/-! ## All symbols -/

theorem blanks_takeWhile (cs : List Char) : Blanks (cs.takeWhile Text.isSpace) :=
  fun _ hc => List.mem_takeWhile_imp hc

theorem append_skipSpace (cs : List Char) : cs.takeWhile Text.isSpace ++ skipSpace cs = cs :=
  List.takeWhile_append_dropWhile

theorem skipSpace_append {ws cs : List Char} (hws : Blanks ws) :
    skipSpace (ws ++ cs) = skipSpace cs := List.dropWhile_append_of_pos hws

theorem skipSpace_cons {c : Char} (hc : Text.isSpace c = false) (cs : List Char) :
    skipSpace (c :: cs) = c :: cs := by
  rw [skipSpace, List.dropWhile_cons_of_neg]
  rw [hc]
  exact Bool.false_ne_true

/-- The symbols that are read spell the text. -/
theorem spelled_of_scan? {cs : List Char} {tokens : List Token} (h : scan? cs = some tokens) :
    Spelled cs tokens := by
  fun_induction scan? cs generalizing tokens with
  | case1 cs hempty =>
      rw [← Option.some.inj h]
      have hnil := append_skipSpace cs
      rw [List.isEmpty_iff.mp hempty, List.append_nil] at hnil
      rw [← hnil]
      exact .nil (blanks_takeWhile cs)
  | case2 => exact absurd h (by simp only [reduceCtorEq, not_false_eq_true])
  | case3 cs _ token rest hnext _ ih =>
      rcases Option.map_eq_some_iff.mp h with ⟨tokens, hrest, rfl⟩
      rcases written_of_next? hnext with ⟨written, hcs, hw⟩
      rw [← append_skipSpace cs, hcs]
      exact .cons (blanks_takeWhile cs) hw (ih hrest)

theorem scan?_of_blanks {ws : List Char} (hws : Blanks ws) : scan? ws = some [] := by
  have hempty : (skipSpace ws).isEmpty = true :=
    List.isEmpty_iff.mpr (List.dropWhile_eq_nil_iff.mpr hws)
  rw [scan?, if_pos hempty]

theorem scan?_of_next? {cs rest : List Char} {token : Token}
    (h : next? (skipSpace cs) = some (token, rest)) :
    scan? cs = (scan? rest).map (token :: ·) := by
  rw [scan?, if_neg]
  · split
    · rename_i hnone
      rw [hnone] at h
      exact absurd h (by simp only [reduceCtorEq, not_false_eq_true])
    · rename_i hsome
      rw [hsome] at h
      rcases Prod.mk.inj (Option.some.inj h) with ⟨rfl, rfl⟩
      rfl
  · intro hempty
    have hnone : next? [] = none := rfl
    rw [List.isEmpty_iff.mp hempty, hnone] at h
    exact absurd h (by simp only [reduceCtorEq, not_false_eq_true])

/-- A spelling without operands side by side is what is read. -/
theorem scan?_of_spelled {cs : List Char} {tokens : List Token} (h : Spelled cs tokens)
    (hapart : Apart tokens) : scan? cs = some tokens := by
  induction h with
  | nil hws => exact scan?_of_blanks hws
  | @cons ws cs rest token tokens hws hw hrest ih =>
      rcases starts_of_written hw with ⟨c, tail, hcs, hc, _⟩
      -- All the blanks are skipped and nothing of the symbol is.
      have hskip : skipSpace (ws ++ (cs ++ rest)) = cs ++ rest := by
        rw [skipSpace_append hws, hcs, List.cons_append, skipSpace_cons hc]
      have hnext := next?_of_written hw hrest hapart
      rw [← hskip] at hnext
      rw [scan?_of_next? hnext, ih hapart.tail]
      rfl

/-! ## Parts of a spelled text -/

theorem blanks_append {ws ws' : List Char} (hws : Blanks ws) (hws' : Blanks ws') :
    Blanks (ws ++ ws') := by
  intro c hc
  rcases List.mem_append.mp hc with hc | hc
  · exact hws c hc
  · exact hws' c hc

theorem spelled_blanks_append {ws cs : List Char} {tokens : List Token} (hws : Blanks ws)
    (h : Spelled cs tokens) : Spelled (ws ++ cs) tokens := by
  cases h with
  | nil hws' => exact .nil (blanks_append hws hws')
  | cons hws' hw hrest =>
      rw [← List.append_assoc]
      exact .cons (blanks_append hws hws') hw hrest

theorem spelled_of_written {cs : List Char} {token : Token} (h : token.Written cs) :
    Spelled cs [token] := by
  have hcons := Spelled.cons (List.forall_mem_nil _) h
    (.nil (List.forall_mem_nil _))
  rw [List.append_nil, List.nil_append] at hcons
  exact hcons

theorem spelled_append {cs cs' : List Char} {tokens tokens' : List Token} (h : Spelled cs tokens)
    (h' : Spelled cs' tokens') : Spelled (cs ++ cs') (tokens ++ tokens') := by
  induction h with
  | nil hws => exact spelled_blanks_append hws h'
  | cons hws hw _ ih =>
      rw [List.append_assoc, List.append_assoc]
      exact .cons hws hw ih

theorem blanks_of_spelled {cs : List Char} (h : Spelled cs []) : Blanks cs := by
  cases h with
  | nil hws => exact hws

theorem spelled_cons_split {cs : List Char} {token : Token} {tokens : List Token}
    (h : Spelled cs (token :: tokens)) :
    ∃ ws written rest, cs = ws ++ (written ++ rest) ∧ Blanks ws ∧ token.Written written ∧
      Spelled rest tokens := by
  cases h with
  | @cons ws written rest _ _ hws hw hrest => exact ⟨ws, written, rest, rfl, hws, hw, hrest⟩

/-- Where the symbols are cut, the text can be cut. -/
theorem spelled_append_split {cs : List Char} {tokens tokens' : List Token}
    (h : Spelled cs (tokens ++ tokens')) :
    ∃ first second, cs = first ++ second ∧ Spelled first tokens ∧ Spelled second tokens' := by
  induction tokens generalizing cs with
  | nil => exact ⟨[], cs, rfl, .nil (List.forall_mem_nil _), h⟩
  | cons token tokens ih =>
      cases h with
      | @cons ws written rest _ _ hws hw hrest =>
          rcases ih hrest with ⟨first, second, rfl, hfirst, hsecond⟩
          refine ⟨ws ++ (written ++ first), second, ?_, .cons hws hw hfirst, hsecond⟩
          rw [List.append_assoc, List.append_assoc]

end Token

end Decision
