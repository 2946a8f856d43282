import Decision.Proofs.Binary64.Shortest
import Decision.Proofs.Condition.Token
import Decision.Proofs.Numeral.Integer

/-!
# Integers in the Text of a Double

Which texts of doubles are read as integers.

The text of a double shows its shortest decimal number with all places. If the
double is an integer that number is one too, and all of its places are digits, with
zeros where the shortest decimal has none. If it is not, the text has something in
it that no integer has: a point, or the letters of an infinity or a NaN. Nothing of
this is white space, so a reader that cuts it off reads the same text.

## Theorems

* `Text.mem_trim_of_mem`: Only white space is cut off.
* `readInteger_ne_of_mem`: A character that is foreign to integers.
* `readInteger_digits`: Digits after an optional minus sign.
* `exists_foreign_of_not_isWhole`: What is foreign in the text of another double.
* `readInteger_doubleText`: The text of an integer is read as its shortest decimal.
* `readInteger_doubleText_ne`: No other text of a double is read as an integer.
-/

namespace Decision

/-! ## Characters -/

namespace Text

theorem trim_of_forall {cs : List Char} (h : ∀ c ∈ cs, isBlank c = false) : trim cs = cs :=
  trim_eq_self (fun c hc => h c (List.mem_of_mem_head? hc))
    fun c hc => h c (List.mem_of_mem_getLast? hc)

theorem mem_dropWhile_of_mem {p : Char → Bool} {c : Char} {cs : List Char} (hc : p c = false)
    (h : c ∈ cs) : c ∈ cs.dropWhile p := by
  rw [← List.takeWhile_append_dropWhile (p := p) (l := cs)] at h
  rcases List.mem_append.mp h with htaken | hleft
  · rw [List.mem_takeWhile_imp htaken] at hc
    cases hc
  · exact hleft

/-- Only white space is cut off. -/
theorem mem_trim_of_mem {c : Char} {cs : List Char} (hc : isBlank c = false) (h : c ∈ cs) :
    c ∈ trim cs := by
  rw [trim, List.mem_reverse]
  exact mem_dropWhile_of_mem hc (List.mem_reverse.mpr (mem_dropWhile_of_mem hc h))

end Text

/-- Places behind the point are shown behind a point. -/
theorem Decimal.point_mem_text {d : Decimal} (h : d.exponent < 0) : '.' ∈ d.text := by
  rcases Int.eq_negSucc_of_lt_zero h with ⟨n, hn⟩
  rw [text, hn]
  exact List.mem_append_right _ List.mem_cons_self

namespace Numeral

/-- A text that denotes an integer has digits in it, and a sign at most. -/
theorem Denotes.mem {cs : List Char} {k : Int} {c : Char} (h : Denotes cs k) (hc : c ∈ cs) :
    c.isDigit = true ∨ c = '+' ∨ c = '-' := by
  cases h with
  | number hsign _ hdigits =>
      rcases List.mem_append.mp hc with hc | hc
      · cases hsign with
        | absent => exact absurd hc List.not_mem_nil
        | plus => exact .inr (.inl (List.mem_singleton.mp hc))
        | minus => exact .inr (.inr (List.mem_singleton.mp hc))
      · exact .inl (hdigits c hc)

/-- A text with a character that belongs to no integer is not read as one. -/
theorem readInteger_ne_of_mem {cs : List Char} {c : Char} (hc : c ∈ cs)
    (hother : c.isDigit = false ∧ c ≠ '+' ∧ c ≠ '-' ∧ Text.isBlank c = false) (n : Int64) :
    readInteger (Text.trim cs) ≠ .ok n := by
  intro h
  rcases hother with ⟨hdigit, hplus, hminus, hblank⟩
  rcases (readInteger_eq_ok_iff.mp h).mem (Text.mem_trim_of_mem hblank hc) with hd | hp | hm
  · rw [hdigit] at hd
    exact Bool.false_ne_true hd
  · exact hplus hp
  · exact hminus hm

/-- Digits after an optional minus sign are read as what they denote. -/
theorem readInteger_digits (negative : Bool) {shown : List Char} (hne : shown ≠ [])
    (hdigits : ∀ c ∈ shown, c.isDigit = true) (n : Int64) :
    readInteger (Text.trim (if negative then '-' :: shown else shown)) = .ok n ↔
      n.toInt = if negative then -(Nat.ofDigitChars 10 shown 0 : Int)
        else (Nat.ofDigitChars 10 shown 0 : Int) := by
  have hblank : ∀ c ∈ shown, Text.isBlank c = false := by
    intro c hc
    refine Operand.not_isBlank_of_starts ?_
    rw [Operand.starts, hdigits c hc, Bool.or_true, Bool.true_or]
  cases negative with
  | true =>
      have hminus : ∀ c ∈ '-' :: shown, Text.isBlank c = false :=
        List.forall_mem_cons.mpr ⟨by decide, hblank⟩
      rw [if_pos rfl, Text.trim_of_forall hminus]
      exact readSigned_eq_ok_iff true hne hdigits n
  | false =>
      have hread : readInteger shown = readSigned false shown :=
        readInteger_sign_append .absent hne hdigits
      rw [if_neg Bool.false_ne_true, Text.trim_of_forall hblank, hread]
      exact readSigned_eq_ok_iff false hne hdigits n

end Numeral

/-! ## The text of a double -/

open Binary64

namespace Numeral

variable {x : Binary64}

/-- The text of a finite double other than zero. -/
theorem doubleText_of_finite (hfinite : x.isFinite = true) (hzero : x.magnitude ≠ 0) :
    doubleText x = if x.negative then '-' :: x.shortest.text else x.shortest.text := by
  have hinfinite : x.isInfinite = false := by
    rw [isInfinite, beq_eq_false_iff_ne]
    exact Nat.ne_of_lt (isFinite_iff.mp hfinite)
  have hbeq : (x.magnitude == 0) = false := beq_eq_false_iff_ne.mpr hzero
  unfold doubleText
  simp only [isNaN_of_isFinite hfinite, hinfinite, hbeq, Bool.false_eq_true, if_false]

/-- A shortest decimal without places behind the point is read as the integer that it
    is, with the sign of the double. -/
theorem readInteger_doubleText {c zeros : Nat} (hfinite : x.isFinite = true)
    (hzero : x.magnitude ≠ 0) (hshortest : x.shortest = ⟨c, zeros⟩) (n : Int64) :
    readInteger (Text.trim (doubleText x)) = .ok n ↔ n.toInt = x.signed (c * 10 ^ zeros) := by
  have htext : x.shortest.text = digits c ++ List.replicate zeros '0' := by
    rw [hshortest]
    rfl
  have hne : digits c ++ List.replicate zeros '0' ≠ [] :=
    List.append_ne_nil_of_left_ne_nil (digits_ne_nil c) _
  have hdigits : ∀ d ∈ digits c ++ List.replicate zeros '0', d.isDigit = true := by
    intro d hd
    rcases List.mem_append.mp hd with hd | hd
    · exact isDigit_of_mem_digits hd
    · rw [List.eq_of_mem_replicate hd]
      rfl
  have hvalue : Nat.ofDigitChars 10 (digits c ++ List.replicate zeros '0') 0 = c * 10 ^ zeros := by
    rw [Nat.ofDigitChars_append, ofDigitChars_digits, Nat.ofDigitChars_replicate_zero,
      Nat.mul_comm]
  rw [doubleText_of_finite hfinite hzero, htext, readInteger_digits x.negative hne hdigits, hvalue]
  exact Iff.rfl

/-- The text of a fraction has a point, and an infinity and a NaN have letters. -/
theorem exists_foreign_of_not_isWhole (h : x.isWhole = false) :
    ∃ c ∈ doubleText x, c = '.' ∨ c = 'f' ∨ c = 'N' := by
  by_cases hfinite : x.isFinite = true
  · have hzero : x.magnitude ≠ 0 := by
      intro hzero
      -- Zero is an integer.
      have hunits : x.units = 0 := by
        unfold units
        rw [hzero]
        exact unitsOf_of_lt (by decide)
      rw [isWhole, hfinite, hunits] at h
      cases h
    -- What is finite and no integer has places behind the point.
    have hpoint := Decimal.point_mem_text (shortest_exponent_neg hfinite h)
    refine ⟨'.', ?_, .inl rfl⟩
    rw [doubleText_of_finite hfinite hzero]
    split
    · exact List.mem_cons_of_mem _ hpoint
    · exact hpoint
  · by_cases hnan : x.isNaN = true
    · refine ⟨'N', ?_, .inr (.inr rfl)⟩
      rw [doubleText, if_pos hnan]
      exact List.mem_cons_self
    · have hinfinite : x.isInfinite = true := by
        rw [isFinite, decide_eq_true_iff] at hfinite
        rw [isNaN, decide_eq_true_iff] at hnan
        rw [isInfinite, beq_iff_eq]
        omega
      refine ⟨'f', ?_, .inr (.inl rfl)⟩
      rw [doubleText, if_neg hnan]
      simp only [hinfinite, if_true]
      split
      · exact List.mem_cons_of_mem _ (by decide)
      · decide

/-- The text of a double that is not an integer is not read as one. -/
theorem readInteger_doubleText_ne (h : x.isWhole = false) (n : Int64) :
    readInteger (Text.trim (doubleText x)) ≠ .ok n := by
  rcases exists_foreign_of_not_isWhole h with ⟨c, hc, hforeign⟩
  refine readInteger_ne_of_mem hc ?_ n
  rcases hforeign with rfl | rfl | rfl <;> decide

end Numeral

end Decision
