import Decision.Proofs.Condition.Grammar
import Decision.Proofs.Numeral.Integer
import Mathlib.Data.List.TakeWhile

/-!
# Reading Operands

The reader of operands finds exactly what the grammar of operands derives.

A derivation does not care what stands behind the operand, and the reader does:
it takes digits and name characters for as long as there are any. So the reader
finds a derived operand only in front of a text that does not extend it, and
`Stops` says which texts those are. Of everything that can stand behind an
operand in a condition only the two points of a range need a second look. They
start with a point, which could continue a number or a name, but what follows
the point is another point, and that could not.

Strings need no such care, since they end at their closing quote.

## Main definitions

* `Stops`: A text does not extend an operand in front of it.

## Theorems

* `quoted_of_readString?`, `readString?_of_quoted`: Strings.
* `written_of_readNumber?`, `readNumber?_of_int`, `readNumber?_of_float`: Numbers.
* `name_of_readName?`, `readName?_of_name`: Names.
* `written_of_read?`: What is read is derived by the grammar.
* `read?_of_written`: What the grammar derives is read, before a text that stops.
-/

namespace Decision

namespace Operand

/-- A text does not extend an operand that stands in front of it. -/
def Stops : List Char → Prop
  | [] => True
  | '.' :: c :: _ => isNamePart c = false
  | c :: _ => isNamePart c = false

/-! ## Strings -/

theorem readString?_plain {c : Char} (hquote : c ≠ '"') (hslash : c ≠ '\\') (cs : List Char) :
    readString? (c :: cs) =
      (readString? cs).map fun (content, after) => (c :: content, after) := by
  rw [readString?]
  · exact hquote
  · exact fun hc _ => hslash hc
  · exact fun _ _ hc _ => hslash hc

theorem unescape_other {c : Char} (hc : c ∉ ['"', '\\', 'n', 't']) : unescape c = ['\\', c] := by
  simp only [List.mem_cons, List.not_mem_nil, or_false, not_or] at hc
  rcases hc with ⟨hquote, hslash, hn, ht⟩
  rw [unescape]
  · exact hquote
  · exact hslash
  · exact hn
  · exact ht

theorem readString?_of_quoted {cs content : List Char} (h : Quoted cs content)
    (rest : List Char) : readString? (cs ++ '"' :: rest) = some (content, rest) := by
  induction h with
  | nil => rfl
  | plain hquote hslash h ih =>
      rw [List.cons_append, readString?_plain hquote hslash, ih]
      rfl
  | quote h ih => simp only [List.cons_append, readString?, ih, Option.map_some, unescape,
      List.nil_append]
  | slash h ih => simp only [List.cons_append, readString?, ih, Option.map_some, unescape,
      List.nil_append]
  | newline h ih => simp only [List.cons_append, readString?, ih, Option.map_some, unescape,
      List.nil_append]
  | tab h ih => simp only [List.cons_append, readString?, ih, Option.map_some, unescape,
      List.nil_append]
  | kept hc h ih => simp only [List.cons_append, readString?, ih, Option.map_some,
      unescape_other hc, List.nil_append]

theorem quoted_escape (c : Char) {cs content : List Char} (h : Quoted cs content) :
    Quoted ('\\' :: c :: cs) (unescape c ++ content) := by
  by_cases hc : c ∈ ['"', '\\', 'n', 't']
  · simp only [List.mem_cons, List.not_mem_nil, or_false] at hc
    rcases hc with rfl | rfl | rfl | rfl
    · exact .quote h
    · exact .slash h
    · exact .newline h
    · exact .tab h
  · rw [unescape_other hc]
    exact .kept hc h

theorem quoted_of_readString? {cs content rest : List Char}
    (h : readString? cs = some (content, rest)) :
    ∃ inside, cs = inside ++ '"' :: rest ∧ Quoted inside content := by
  fun_induction readString? cs generalizing content with
  | case1 => exact absurd h (by simp only [reduceCtorEq, not_false_eq_true])
  | case2 after =>
      rcases Prod.mk.inj (Option.some.inj h) with ⟨rfl, rfl⟩
      exact ⟨[], rfl, .nil⟩
  | case3 => exact absurd h (by simp only [reduceCtorEq, not_false_eq_true])
  | case4 c after ih =>
      rcases Option.map_eq_some_iff.mp h with ⟨⟨found, left⟩, hread, heq⟩
      rcases Prod.mk.inj heq with ⟨rfl, rfl⟩
      rcases ih hread with ⟨inside, rfl, hq⟩
      exact ⟨'\\' :: c :: inside, rfl, quoted_escape c hq⟩
  | case5 c after hquote hnil hslash ih =>
      rcases Option.map_eq_some_iff.mp h with ⟨⟨found, left⟩, hread, heq⟩
      rcases Prod.mk.inj heq with ⟨rfl, rfl⟩
      rcases ih hread with ⟨inside, rfl, hq⟩
      -- A backslash has a character behind it here, and was an escape.
      have hc : c ≠ '\\' := by
        intro hc
        cases hcs : inside ++ '"' :: left with
        | nil => exact hnil hc hcs
        | cons d ds => exact hslash d ds hc hcs
      exact ⟨c :: inside, rfl, .plain hquote hc hq⟩

/-! ## Numbers -/

theorem not_isDigit_of_not_isNamePart {c : Char} (h : isNamePart c = false) :
    c.isDigit = false := by
  simp only [isNamePart, Char.isAlphanum, Bool.or_eq_false_iff] at h
  exact h.1.2

theorem leadingDigits_cons {c : Char} (hc : c.isDigit = false) (cs : List Char) :
    Numeral.leadingDigits (c :: cs) = [] := by
  refine List.takeWhile_cons_of_neg ?_
  rw [hc]
  exact Bool.false_ne_true

theorem leadingDigits_of_stops {rest : List Char} (h : Stops rest) :
    Numeral.leadingDigits rest = [] := by
  cases rest with
  | nil => rfl
  | cons c cs =>
      refine leadingDigits_cons ?_ cs
      by_cases hc : c = '.'
      · rw [hc]
        rfl
      · rw [Stops] at h
        · exact not_isDigit_of_not_isNamePart h
        · exact fun d ds hd _ => hc hd

theorem afterDigits_of_leadingDigits {cs : List Char} (h : Numeral.leadingDigits cs = []) :
    Numeral.afterDigits cs = cs := by
  have hsplit := List.takeWhile_append_dropWhile (p := Char.isDigit) (l := cs)
  rw [Numeral.leadingDigits] at h
  rw [h, List.nil_append] at hsplit
  exact hsplit

theorem readFraction_of_not_point {cs : List Char} (h : ∀ rest, cs ≠ '.' :: rest) :
    readFraction cs = ([], cs) := by
  rw [readFraction]
  exact h

theorem readFraction_of_stops {rest : List Char} (h : Stops rest) :
    readFraction rest = ([], rest) := by
  by_cases hpoint : ∃ cs, rest = '.' :: cs
  · rcases hpoint with ⟨cs, rfl⟩
    -- Behind the point stands no digit, so the point stays where it is.
    have hnone : Numeral.leadingDigits cs = [] := by
      cases cs with
      | nil => rfl
      | cons c cs => exact leadingDigits_cons (not_isDigit_of_not_isNamePart h) cs
    simp only [readFraction, hnone, List.isEmpty_nil, if_true]
  · exact readFraction_of_not_point fun cs hcs => hpoint ⟨cs, hcs⟩

theorem isEmpty_of_digits {cs : List Char} (h : Digits cs) : cs.isEmpty = false :=
  List.isEmpty_eq_false_iff.mpr h.1

theorem leadingDigits_append {digits rest : List Char} (hdigits : Digits digits)
    (hrest : Numeral.leadingDigits rest = []) :
    Numeral.leadingDigits (digits ++ rest) = digits := by
  rw [Numeral.leadingDigits] at hrest ⊢
  rw [List.takeWhile_append_of_pos hdigits.2, hrest, List.append_nil]

theorem afterDigits_append {digits rest : List Char} (hdigits : Digits digits)
    (hrest : Numeral.leadingDigits rest = []) : Numeral.afterDigits (digits ++ rest) = rest := by
  rw [Numeral.afterDigits, List.dropWhile_append_of_pos hdigits.2]
  exact afterDigits_of_leadingDigits hrest

theorem leadingDigits_afterDigits (cs : List Char) :
    Numeral.leadingDigits (Numeral.afterDigits cs) = [] := by
  rw [Numeral.leadingDigits, List.takeWhile_eq_nil_iff]
  exact fun hl => List.dropWhile_get_zero_not Char.isDigit cs hl

theorem digits_leadingDigits {cs : List Char} (h : Numeral.leadingDigits cs ≠ []) :
    Digits (Numeral.leadingDigits cs) :=
  ⟨h, fun _ hc => List.mem_takeWhile_imp hc⟩

theorem readFraction_point {fraction rest : List Char} (hfraction : Digits fraction)
    (hrest : Numeral.leadingDigits rest = []) :
    readFraction ('.' :: (fraction ++ rest)) = ('.' :: fraction, rest) := by
  simp only [readFraction, leadingDigits_append hfraction hrest,
    afterDigits_append hfraction hrest, isEmpty_of_digits hfraction, Bool.false_eq_true, if_false]

/-- Either nothing is taken behind the digits, or a point and more digits. -/
theorem readFraction_cases (cs : List Char) : readFraction cs = ([], cs) ∨
    ∃ fraction rest, Digits fraction ∧ cs = '.' :: (fraction ++ rest) ∧
      readFraction cs = ('.' :: fraction, rest) := by
  by_cases hpoint : ∃ rest, cs = '.' :: rest
  · rcases hpoint with ⟨rest, rfl⟩
    by_cases hnone : Numeral.leadingDigits rest = []
    · left
      simp only [readFraction, hnone, List.isEmpty_nil, if_true]
    · right
      refine ⟨Numeral.leadingDigits rest, Numeral.afterDigits rest, digits_leadingDigits hnone, ?_,
        ?_⟩
      · rw [Numeral.leadingDigits, Numeral.afterDigits, List.takeWhile_append_dropWhile]
      · rw [readFraction, if_neg]
        rw [List.isEmpty_iff]
        exact hnone
  · exact Or.inl (readFraction_of_not_point fun rest hrest => hpoint ⟨rest, hrest⟩)

theorem cons_ne_of_isDigit {d c : Char} (hd : d.isDigit = true) (hc : c.isDigit = false)
    (ds cs : List Char) : d :: ds ≠ c :: cs := by
  intro h
  rw [(List.cons.inj h).1, hc] at hd
  exact Bool.false_ne_true hd

theorem readMinus_append {minus digits : List Char} {negative : Bool}
    (hminus : Minus minus negative) (hdigits : Digits digits) (rest : List Char) :
    readMinus (minus ++ digits ++ rest) = (minus, digits ++ rest) := by
  cases hminus with
  | present => rfl
  | absent =>
      rw [List.nil_append, readMinus]
      intro cs hcs
      cases digits with
      | nil => exact hdigits.1 rfl
      | cons d ds =>
          have hd : d.isDigit = true := hdigits.2 d List.mem_cons_self
          exact cons_ne_of_isDigit hd (by decide) (ds ++ rest) cs hcs

theorem minus_readMinus (cs : List Char) :
    ∃ negative, Minus (readMinus cs).1 negative ∧ cs = (readMinus cs).1 ++ (readMinus cs).2 := by
  unfold readMinus
  split
  · exact ⟨true, .present, rfl⟩
  · exact ⟨false, .absent, rfl⟩

/-- The reader of a number, once it is known where the digits end. -/
theorem readNumber?_append {minus whole left : List Char} {negative : Bool}
    (hminus : Minus minus negative) (hwhole : Digits whole)
    (hleft : Numeral.leadingDigits left = []) :
    readNumber? (minus ++ whole ++ left) =
      if (readFraction left).1.isEmpty then
        (Numeral.readInteger (minus ++ whole)).toOption.map fun n =>
          (.int n, (readFraction left).2)
      else
        (Numeral.readDouble (minus ++ whole ++ (readFraction left).1)).toOption.map fun x =>
          (.float x, (readFraction left).2) := by
  simp only [readNumber?, readMinus_append hminus hwhole, leadingDigits_append hwhole hleft,
    afterDigits_append hwhole hleft, isEmpty_of_digits hwhole, Bool.false_eq_true, if_false]

theorem eq_ok_of_toOption {ε α : Type} {result : Except ε α} {a : α}
    (h : result.toOption = some a) : result = .ok a := by
  cases result with
  | error e => exact absurd h (by simp only [Except.toOption, reduceCtorEq, not_false_eq_true])
  | ok b => rw [Option.some.inj h]

/-- In front of digits an optional minus sign is all the sign there is. -/
theorem readInteger_append {minus digits : List Char} {negative : Bool}
    (hminus : Minus minus negative) (hdigits : Digits digits) :
    Numeral.readInteger (minus ++ digits) = Numeral.readSigned negative digits := by
  cases hminus with
  | present => exact Numeral.readInteger_sign_append .minus hdigits.1 hdigits.2
  | absent => exact Numeral.readInteger_sign_append .absent hdigits.1 hdigits.2

theorem readDouble_append {minus whole rest : List Char} {negative : Bool}
    (hminus : Minus minus negative) (hwhole : Digits whole) :
    Numeral.readDouble (minus ++ whole ++ rest) =
      Numeral.readUnsigned negative (whole ++ rest) := by
  cases hminus with
  | present => rfl
  | absent =>
      cases whole with
      | nil => exact absurd rfl hwhole.1
      | cons d ds =>
          have hd : d.isDigit = true := hwhole.2 d List.mem_cons_self
          rw [List.nil_append, List.cons_append, Numeral.readDouble]
          · exact List.cons_ne_nil d (ds ++ rest)
          · exact fun cs => cons_ne_of_isDigit hd (by decide) (ds ++ rest) cs
          · exact fun cs => cons_ne_of_isDigit hd (by decide) (ds ++ rest) cs

theorem readUnsigned_point {whole fraction : List Char} (negative : Bool) (hwhole : Digits whole)
    (hfraction : Digits fraction) :
    Numeral.readUnsigned negative (whole ++ '.' :: fraction) =
      .ok (.ofDecimal negative ⟨Nat.ofDigitChars 10 (whole ++ fraction) 0, -fraction.length⟩) := by
  have hend : Numeral.leadingDigits [] = [] := rfl
  have hpoint : Numeral.leadingDigits ('.' :: fraction) = [] := rfl
  have hdigits := leadingDigits_append hfraction hend
  have hnone := afterDigits_append hfraction hend
  rw [List.append_nil] at hdigits hnone
  have hdecimal : Numeral.readDecimal? (whole ++ '.' :: fraction) =
      some ⟨Nat.ofDigitChars 10 (whole ++ fraction) 0, -fraction.length⟩ := by
    simp only [Numeral.readDecimal?, leadingDigits_append hwhole hpoint,
      afterDigits_append hwhole hpoint, hdigits, hnone, isEmpty_of_digits hwhole,
      Bool.false_and, Bool.false_eq_true, if_false, Numeral.readPower?, Option.map_some,
      Int.zero_sub]
  rw [Numeral.readUnsigned, hdecimal]

theorem readNumber?_of_int {minus digits rest : List Char} {negative : Bool} {n : Int64}
    (hminus : Minus minus negative) (hdigits : Digits digits)
    (hn : n.toInt = if negative then -(Nat.ofDigitChars 10 digits 0 : Int)
      else (Nat.ofDigitChars 10 digits 0 : Int)) (hrest : Stops rest) :
    readNumber? (minus ++ digits ++ rest) = some (.int n, rest) := by
  rw [readNumber?_append hminus hdigits (leadingDigits_of_stops hrest),
    readFraction_of_stops hrest, if_pos List.isEmpty_nil, readInteger_append hminus hdigits,
    (Numeral.readSigned_eq_ok_iff negative hdigits.1 hdigits.2 n).mpr hn]
  rfl

theorem readNumber?_of_float {minus whole fraction rest : List Char} {negative : Bool}
    (hminus : Minus minus negative) (hwhole : Digits whole) (hfraction : Digits fraction)
    (hrest : Stops rest) :
    readNumber? (minus ++ whole ++ '.' :: (fraction ++ rest)) = some (.float (.ofDecimal negative
      ⟨Nat.ofDigitChars 10 (whole ++ fraction) 0, -fraction.length⟩), rest) := by
  rw [readNumber?_append hminus hwhole rfl,
    readFraction_point hfraction (leadingDigits_of_stops hrest)]
  simp only [List.isEmpty_cons, Bool.false_eq_true, if_false, readDouble_append hminus hwhole,
    readUnsigned_point negative hwhole hfraction]
  rfl

theorem written_of_readNumber? {cs rest : List Char} {value : Value}
    (h : readNumber? cs = some (value, rest)) :
    ∃ written, cs = written ++ rest ∧ Operand.Written written (.literal value) := by
  rcases minus_readMinus cs with ⟨negative, hminus, hcs⟩
  generalize (readMinus cs).1 = minus at hminus hcs
  generalize hunsigned : (readMinus cs).2 = unsigned at hcs
  have hsplit : Numeral.leadingDigits unsigned ++ Numeral.afterDigits unsigned = unsigned :=
    List.takeWhile_append_dropWhile
  by_cases hwhole : Numeral.leadingDigits unsigned = []
  · -- Without digits there is no number.
    simp only [readNumber?, hunsigned, hwhole, List.isEmpty_nil, if_true, reduceCtorEq] at h
  · have hwhole : Digits (Numeral.leadingDigits unsigned) := digits_leadingDigits hwhole
    have hleft := leadingDigits_afterDigits unsigned
    generalize Numeral.leadingDigits unsigned = whole at hsplit hwhole
    generalize Numeral.afterDigits unsigned = left at hsplit hleft
    rw [← hsplit, ← List.append_assoc] at hcs
    rw [hcs, readNumber?_append hminus hwhole hleft] at h
    -- What follows the digits tells an integer from a double.
    rcases readFraction_cases left with hnone | ⟨fraction, after, hfraction, rfl, hsome⟩
    · rw [hnone, if_pos List.isEmpty_nil] at h
      rcases Option.map_eq_some_iff.mp h with ⟨n, hn, heq⟩
      rcases Prod.mk.inj heq with ⟨rfl, rfl⟩
      have hread := eq_ok_of_toOption hn
      rw [readInteger_append hminus hwhole] at hread
      have hn := (Numeral.readSigned_eq_ok_iff negative hwhole.1 hwhole.2 n).mp hread
      exact ⟨minus ++ whole, hcs, .int hminus hwhole hn⟩
    · rw [hsome] at h
      simp only [List.isEmpty_cons, Bool.false_eq_true, if_false] at h
      rcases Option.map_eq_some_iff.mp h with ⟨x, hx, heq⟩
      rcases Prod.mk.inj heq with ⟨rfl, rfl⟩
      have hread := eq_ok_of_toOption hx
      rw [readDouble_append hminus hwhole, readUnsigned_point negative hwhole hfraction] at hread
      rw [← Except.ok.inj hread]
      refine ⟨minus ++ whole ++ '.' :: fraction, ?_, .float hminus hwhole hfraction⟩
      rw [hcs, List.append_assoc _ ('.' :: fraction), List.cons_append]

/-! ## Names -/

theorem readNameTail_of_isNamePart {c : Char} (hc : isNamePart c = true) (cs : List Char) :
    readNameTail (c :: cs) = (c :: (readNameTail cs).1, (readNameTail cs).2) := by
  have hpoint : c ≠ '.' := by
    rintro rfl
    exact absurd hc (by decide)
  rw [readNameTail, if_pos hc]
  · exact fun hc' _ => hpoint hc'
  · exact fun _ _ hc' _ => hpoint hc'

theorem readNameTail_append {part : List Char} (hpart : ∀ c ∈ part, isNamePart c = true)
    (cs : List Char) :
    readNameTail (part ++ cs) = (part ++ (readNameTail cs).1, (readNameTail cs).2) := by
  induction part with
  | nil => rfl
  | cons c part ih =>
      rw [List.cons_append, readNameTail_of_isNamePart (hpart c List.mem_cons_self),
        ih fun d hd => hpart d (List.mem_cons_of_mem c hd)]
      rfl

/-- Behind a point a name goes on with a name, or has ended before the point. -/
theorem readNameTail_point (cs : List Char) :
    readNameTail ('.' :: cs) =
      match readName? cs with
      | some (name, rest) => ('.' :: name, rest)
      | none => ([], '.' :: cs) := by
  cases cs with
  | nil => rfl
  | cons c cs =>
      by_cases hc : isNameStart c = true
      · simp only [readNameTail, readName?, if_pos hc]
      · simp only [readNameTail, readName?, if_neg hc]

theorem isNamePart_of_isNameStart {c : Char} (h : isNameStart c = true) : isNamePart c = true := by
  simp only [isNameStart, isNamePart, Char.isAlphanum, Bool.or_eq_true] at h ⊢
  rcases h with h | h
  · exact Or.inl (Or.inl h)
  · exact Or.inr h

theorem not_isNameStart {c : Char} (h : isNamePart c = false) : isNameStart c = false := by
  cases hc : isNameStart c with
  | false => rfl
  | true => exact absurd (isNamePart_of_isNameStart hc) (by rw [h]; exact Bool.false_ne_true)

theorem readNameTail_of_stops {rest : List Char} (h : Stops rest) :
    readNameTail rest = ([], rest) := by
  cases rest with
  | nil => rfl
  | cons c cs =>
      by_cases hc : c = '.'
      · subst hc
        rw [readNameTail_point]
        cases cs with
        | nil => rfl
        | cons d ds =>
            have hd : isNameStart d = false := not_isNameStart h
            simp only [readName?, hd, Bool.false_eq_true, if_false]
      · rw [Stops] at h
        · rw [readNameTail, if_neg]
          · rw [h]
            exact Bool.false_ne_true
          · exact fun hc' _ => hc hc'
          · exact fun _ _ hc' _ => hc hc'
        · exact fun _ _ hc' _ => hc hc'

theorem readName?_of_isNameStart {c : Char} (hc : isNameStart c = true) (cs : List Char) :
    readName? (c :: cs) = some (c :: (readNameTail cs).1, (readNameTail cs).2) := by
  simp only [readName?, if_pos hc]

theorem readName?_of_name {cs rest : List Char} (h : Name cs) (hrest : Stops rest) :
    readName? (cs ++ rest) = some (cs, rest) := by
  induction h with
  | segment h =>
      rcases h with ⟨c, part, rfl, hc, hpart⟩
      rw [List.cons_append, readName?_of_isNameStart hc, readNameTail_append hpart,
        readNameTail_of_stops hrest, List.append_nil]
  | dotted h _ ih =>
      rcases h with ⟨c, part, rfl, hc, hpart⟩
      rw [List.append_assoc, List.cons_append, List.cons_append, readName?_of_isNameStart hc,
        readNameTail_append hpart, readNameTail_point, ih]
      rfl

/-- Whatever segment is read first, what the tail adds to it makes a name. -/
theorem name_of_readNameTail (cs : List Char) :
    cs = (readNameTail cs).1 ++ (readNameTail cs).2 ∧
      ∀ segment, Segment segment → Name (segment ++ (readNameTail cs).1) := by
  fun_induction readNameTail cs with
  | case1 => exact ⟨rfl, fun segment h => by rw [List.append_nil]; exact .segment h⟩
  | case2 => exact ⟨rfl, fun segment h => by rw [List.append_nil]; exact .segment h⟩
  | case3 c rest hc tail after htail ih =>
      rw [htail] at ih
      rcases ih with ⟨rfl, ih⟩
      refine ⟨rfl, fun segment h => .dotted h (ih [c] ⟨c, [], rfl, hc, ?_⟩)⟩
      exact List.forall_mem_nil _
  | case4 c rest hc => exact ⟨rfl, fun segment h => by rw [List.append_nil]; exact .segment h⟩
  | case5 c rest _ _ hc tail after htail ih =>
      rw [htail] at ih
      rcases ih with ⟨rfl, ih⟩
      refine ⟨rfl, fun segment h => ?_⟩
      -- The character joins the segment, which is one character longer then.
      rcases h with ⟨d, part, rfl, hd, hpart⟩
      have hjoined := ih (d :: part ++ [c]) ⟨d, part ++ [c], rfl, hd, ?_⟩
      · rw [List.append_assoc] at hjoined
        exact hjoined
      · intro e he
        rcases List.mem_append.mp he with he | he
        · exact hpart e he
        · rw [List.mem_singleton.mp he]
          exact hc
  | case6 c rest _ _ hc => exact ⟨rfl, fun segment h => by rw [List.append_nil]; exact .segment h⟩

theorem name_of_readName? {cs name rest : List Char} (h : readName? cs = some (name, rest)) :
    cs = name ++ rest ∧ Name name := by
  cases cs with
  | nil => exact absurd h (by simp only [readName?, reduceCtorEq, not_false_eq_true])
  | cons c cs =>
      by_cases hc : isNameStart c = true
      · rw [readName?_of_isNameStart hc] at h
        rcases Prod.mk.inj (Option.some.inj h) with ⟨rfl, rfl⟩
        rcases name_of_readNameTail cs with ⟨hcs, hname⟩
        refine ⟨congrArg (c :: ·) hcs, hname [c] ⟨c, [], rfl, hc, ?_⟩⟩
        exact List.forall_mem_nil _
      · simp only [readName?, if_neg hc, reduceCtorEq] at h

/-! ## Operands -/

theorem ofName_of_free {cs : List Char} (hfree : cs ∉ reserved) :
    ofName (String.ofList cs) = .named (String.ofList cs) := by
  have hne : ∀ word ∈ reserved, String.ofList cs = String.ofList word → False := by
    intro word hword h
    rw [String.ofList_injective h] at hfree
    exact hfree hword
  rw [ofName]
  · exact hne "true".toList (by decide)
  · exact hne "false".toList (by decide)
  · exact hne "null".toList (by decide)

theorem written_of_name {cs : List Char} (h : Name cs) :
    Operand.Written cs (ofName (String.ofList cs)) := by
  by_cases hfree : cs ∈ reserved
  · simp only [reserved, List.mem_cons, List.not_mem_nil, or_false] at hfree
    rcases hfree with rfl | rfl | rfl
    · exact .true
    · exact .false
    · exact .null
  · rw [ofName_of_free hfree]
    exact .named h hfree

theorem name_cons {c : Char} {cs : List Char} (hc : isNameStart c = true)
    (hcs : cs.all isNamePart = true) : Name (c :: cs) :=
  .segment ⟨c, cs, rfl, hc, List.all_eq_true.mp hcs⟩

theorem name_of_mem_reserved {cs : List Char} (h : cs ∈ reserved) : Name cs := by
  simp only [reserved, List.mem_cons, List.not_mem_nil, or_false] at h
  rcases h with rfl | rfl | rfl <;> exact name_cons rfl rfl

theorem not_isDigit_of_isNameStart {c : Char} (h : isNameStart c = true) : c.isDigit = false := by
  simp only [isNameStart, Bool.or_eq_true, beq_iff_eq] at h
  rcases h with h | rfl
  · unfold Char.isAlpha Char.isUpper Char.isLower at h
    simp only [Bool.or_eq_true, Bool.and_eq_true, decide_eq_true_eq] at h
    simp only [Char.isDigit, Bool.and_eq_false_iff, decide_eq_false_iff_not]
    grind
  · rfl

/-- No number starts like a name. -/
theorem readNumber?_of_isNameStart {c : Char} (hc : isNameStart c = true) (cs : List Char) :
    readNumber? (c :: cs) = none := by
  have hminus : readMinus (c :: cs) = ([], c :: cs) := by
    rw [readMinus]
    rintro rest hrest
    rw [(List.cons.inj hrest).1] at hc
    exact absurd hc (by decide)
  have hnone := leadingDigits_cons (not_isDigit_of_isNameStart hc) cs
  simp only [readNumber?, hminus, hnone, List.isEmpty_nil, if_true]

theorem read?_of_not_quote {cs : List Char} (h : ∀ rest, cs ≠ '"' :: rest) :
    read? cs =
      match readNumber? cs with
      | some (value, rest) => some (.literal value, rest)
      | none => (readName? cs).map fun (name, rest) => (ofName (String.ofList name), rest) := by
  rw [read?.eq_def]
  split
  · exact absurd rfl (h _)
  · rfl

theorem read?_of_readNumber? {cs rest : List Char} {value : Value}
    (h : readNumber? cs = some (value, rest)) : read? cs = some (.literal value, rest) := by
  rw [read?_of_not_quote, h]
  rintro after rfl
  have hnone : readNumber? ('"' :: after) = none := rfl
  rw [hnone] at h
  exact absurd h (by simp only [reduceCtorEq, not_false_eq_true])

theorem read?_of_name {cs rest : List Char} (h : Name cs) (hrest : Stops rest) :
    read? (cs ++ rest) = some (ofName (String.ofList cs), rest) := by
  have hread := readName?_of_name h hrest
  -- The first character decides that neither a string nor a number is read.
  cases hcs : cs ++ rest with
  | nil =>
      rw [hcs] at hread
      exact absurd hread (by simp only [readName?, reduceCtorEq, not_false_eq_true])
  | cons c tail =>
      have hc : isNameStart c = true := by
        by_contra hc
        rw [hcs, readName?, if_neg hc] at hread
        exact absurd hread (by simp only [reduceCtorEq, not_false_eq_true])
      rw [read?_of_not_quote, readNumber?_of_isNameStart hc, ← hcs, hread]
      · rfl
      · rintro after hafter
        rw [(List.cons.inj hafter).1] at hc
        exact absurd hc (by decide)

/-- What the grammar derives is read, before a text that does not extend it. -/
theorem read?_of_written {cs rest : List Char} {operand : Operand} (h : operand.Written cs)
    (hrest : Stops rest) : read? (cs ++ rest) = some (operand, rest) := by
  cases h with
  | string h =>
      -- The closing quote ends a string, whatever follows it.
      have hread := readString?_of_quoted h rest
      simp only [List.cons_append, List.append_assoc, List.nil_append, read?, hread,
        Option.map_some]
  | int hminus hdigits hn =>
      exact read?_of_readNumber? (readNumber?_of_int hminus hdigits hn hrest)
  | float hminus hwhole hfraction =>
      have hread := readNumber?_of_float hminus hwhole hfraction hrest
      rw [List.append_assoc _ _ rest, List.cons_append]
      exact read?_of_readNumber? hread
  | true => exact read?_of_name (name_of_mem_reserved (by decide)) hrest
  | false => exact read?_of_name (name_of_mem_reserved (by decide)) hrest
  | null => exact read?_of_name (name_of_mem_reserved (by decide)) hrest
  | named h hfree => rw [read?_of_name h hrest, ofName_of_free hfree]

/-- What is read is derived by the grammar. -/
theorem written_of_read? {cs rest : List Char} {operand : Operand}
    (h : read? cs = some (operand, rest)) :
    ∃ written, cs = written ++ rest ∧ operand.Written written := by
  unfold read? at h
  split at h
  · rcases Option.map_eq_some_iff.mp h with ⟨⟨content, after⟩, hread, heq⟩
    rcases Prod.mk.inj heq with ⟨rfl, rfl⟩
    rcases quoted_of_readString? hread with ⟨inside, rfl, hq⟩
    refine ⟨'"' :: (inside ++ ['"']), ?_, .string hq⟩
    rw [List.cons_append, List.append_assoc]
    rfl
  · split at h
    · rename_i hread
      rcases Prod.mk.inj (Option.some.inj h) with ⟨rfl, rfl⟩
      exact written_of_readNumber? hread
    · rcases Option.map_eq_some_iff.mp h with ⟨⟨name, after⟩, hread, heq⟩
      rcases Prod.mk.inj heq with ⟨rfl, rfl⟩
      rcases name_of_readName? hread with ⟨hcs, hname⟩
      exact ⟨name, hcs, written_of_name hname⟩

end Operand

end Decision
