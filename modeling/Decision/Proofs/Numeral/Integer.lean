import Decision.Numeral.Integer

/-!
# Integers Read from Digits

Which integer a run of digits is read as, and when it is read at all.

Reading stops as soon as the value read so far exceeds the limit. The value of a
run of digits is never below the value of its beginning, so stopping early
refuses nothing that would have come back into the range. What is read is
therefore what the digits denote, and it is read exactly if it fits.

`Denotes` says which texts denote which integers without a word on reading or
on ranges. Of the signs only the minus changes what the digits denote.

## Main definitions

* `Sign`: The signs that a number may have in front.
* `Denotes`: A text is an integer in decimal.

## Theorems

* `readDigits_eq_ok_iff`: Digits are read as their value if it is within the
  limit, and not at all otherwise.
* `readSigned_eq_ok_iff`: The same for a signed number of 64 bits.
* `readInteger_eq_ok_iff`: A text is read as the 64-bit integer that it denotes.
-/

namespace Decision

namespace Numeral

theorem le_ofDigitChars (cs : List Char) (acc : Nat) : acc ≤ Nat.ofDigitChars 10 cs acc := by
  induction cs generalizing acc with
  | nil =>
      exact Nat.le_of_eq Nat.ofDigitChars_nil.symm
  | cons c cs ih =>
      rw [Nat.ofDigitChars_cons]
      have := ih (10 * acc + (c.toNat - '0'.toNat))
      omega

/-- Digits are read as their value if it is within the limit, and not at all
    otherwise. -/
theorem readDigits_eq_ok_iff {limit : Nat} {beyond : IntegerError} {cs : List Char}
    (hdigits : ∀ c ∈ cs, c.isDigit = true) {acc : Nat} (hacc : acc ≤ limit) (n : Nat) :
    readDigits limit beyond acc cs = .ok n ↔ n = Nat.ofDigitChars 10 cs acc ∧ n ≤ limit := by
  induction cs generalizing acc with
  | nil =>
      rw [readDigits, Except.ok.injEq, Nat.ofDigitChars_nil]
      constructor
      · rintro rfl
        exact ⟨rfl, hacc⟩
      · rintro ⟨rfl, _⟩
        rfl
  | cons c cs ih =>
      have hc : c.isDigit = true := hdigits c List.mem_cons_self
      have hrest : ∀ d ∈ cs, d.isDigit = true := fun d hd => hdigits d (List.mem_cons_of_mem c hd)
      rw [readDigits, if_pos hc, Nat.ofDigitChars_cons]
      by_cases hnext : limit < 10 * acc + (c.toNat - '0'.toNat)
      · -- The value has outgrown the limit and will not come back.
        have hgrow := le_ofDigitChars cs (10 * acc + (c.toNat - '0'.toNat))
        simp only [if_pos hnext, reduceCtorEq, false_iff, not_and]
        omega
      · simp only [if_neg hnext]
        exact ih hrest (by omega)

/-- A sign and digits are read as the 64-bit integer they denote, if there is
    one. -/
theorem readSigned_eq_ok_iff (negative : Bool) {cs : List Char} (hne : cs ≠ [])
    (hdigits : ∀ c ∈ cs, c.isDigit = true) (n : Int64) :
    readSigned negative cs = .ok n ↔
      n.toInt = if negative then -(Nat.ofDigitChars 10 cs 0 : Int)
        else (Nat.ofDigitChars 10 cs 0 : Int) := by
  have hlo : -2 ^ 63 ≤ n.toInt := n.le_toInt
  have hhi : n.toInt < 2 ^ 63 := n.toInt_lt
  have hempty : cs.isEmpty = false := by
    rw [List.isEmpty_eq_false_iff]
    exact hne
  rw [readSigned, hempty, if_neg Bool.false_ne_true]
  generalize hlimit : (if negative = true then 2 ^ 63 else 2 ^ 63 - 1) = limit
  generalize (if negative = true then IntegerError.tooSmall else IntegerError.tooLarge) = beyond
  have hread : ∀ size, readDigits limit beyond 0 cs = .ok size ↔
      size = Nat.ofDigitChars 10 cs 0 ∧ size ≤ limit :=
    readDigits_eq_ok_iff hdigits (Nat.zero_le limit)
  cases hsize : readDigits limit beyond 0 cs with
  | error e =>
      -- The value is beyond the limit, and so is no 64-bit integer.
      have hbeyond : ¬ Nat.ofDigitChars 10 cs 0 ≤ limit := by
        intro hle
        rw [(hread _).mpr ⟨rfl, hle⟩] at hsize
        exact absurd hsize (by simp only [reduceCtorEq, not_false_eq_true])
      have hne' : (Except.error e >>= fun size : Nat => pure (f := Except IntegerError)
          (Int64.ofInt (if negative = true then -(size : Int) else size))) ≠ .ok n := by
        simp only [bind, Except.bind, ne_eq, reduceCtorEq, not_false_eq_true]
      refine iff_of_false hne' ?_
      cases negative <;> simp only [if_true, Bool.false_eq_true, if_false] at hlimit ⊢ <;> omega
  | ok size =>
      rcases (hread size).mp hsize with ⟨hvalue, hle⟩
      rw [← hvalue]
      have hok : ∀ m : Int64, (Except.ok m : Except IntegerError Int64) = .ok n ↔ m = n := by
        intro m
        rw [Except.ok.injEq]
      have hinj : ∀ m : Int, -2 ^ 63 ≤ m → m < 2 ^ 63 → (Int64.ofInt m = n ↔ n.toInt = m) := by
        intro m hmlo hmhi
        constructor
        · rintro rfl
          exact Int64.toInt_ofInt_of_le hmlo hmhi
        · intro hm
          rw [← hm, Int64.ofInt_toInt]
      refine (hok _).trans (hinj _ ?_ ?_) <;>
        cases negative <;> simp only [if_true, Bool.false_eq_true, if_false] at hlimit ⊢ <;> omega

/-! ## Texts -/

/-- An optional sign, and whether it is a minus. -/
inductive Sign : List Char → Bool → Prop where
  | absent : Sign [] false
  | plus : Sign ['+'] false
  | minus : Sign ['-'] true

/-- An optional sign and at least one decimal digit, and the integer that they
    denote. -/
inductive Denotes : List Char → Int → Prop where
  | number {sign digits : List Char} {negative : Bool} (hsign : Sign sign negative)
      (hne : digits ≠ []) (hdigits : ∀ c ∈ digits, c.isDigit = true) :
      Denotes (sign ++ digits) (if negative then -(Nat.ofDigitChars 10 digits 0 : Int)
        else (Nat.ofDigitChars 10 digits 0 : Int))

/-- Whatever is read consists of digits. -/
theorem isDigit_of_readDigits {limit : Nat} {beyond : IntegerError} {acc n : Nat}
    {cs : List Char} (h : readDigits limit beyond acc cs = .ok n) :
    ∀ c ∈ cs, c.isDigit = true := by
  induction cs generalizing acc with
  | nil => exact List.forall_mem_nil _
  | cons c cs ih =>
      rw [readDigits] at h
      by_cases hc : c.isDigit = true
      · simp only [if_pos hc] at h
        split at h
        · cases h
        · exact List.forall_mem_cons.mpr ⟨hc, ih h⟩
      · rw [if_neg hc] at h
        cases h

/-- There is something to read after the sign, and all of it are digits. -/
theorem digits_of_readSigned {negative : Bool} {cs : List Char} {n : Int64}
    (h : readSigned negative cs = .ok n) : cs ≠ [] ∧ ∀ c ∈ cs, c.isDigit = true := by
  rw [readSigned] at h
  cases hempty : cs.isEmpty with
  | true =>
      rw [hempty, if_pos rfl] at h
      cases h
  | false =>
      rw [hempty, if_neg Bool.false_ne_true] at h
      generalize (if negative = true then 2 ^ 63 else 2 ^ 63 - 1) = limit at h
      generalize (if negative = true then IntegerError.tooSmall else IntegerError.tooLarge) =
        beyond at h
      refine ⟨List.isEmpty_eq_false_iff.mp hempty, ?_⟩
      cases hread : readDigits limit beyond 0 cs with
      | ok size => exact isDigit_of_readDigits hread
      | error e =>
          rw [hread] at h
          cases h

/-- A text that is not empty is read after its sign. -/
theorem exists_sign {cs : List Char} (hne : cs ≠ []) :
    ∃ sign rest negative, Sign sign negative ∧ cs = sign ++ rest ∧
      readInteger cs = readSigned negative rest := by
  unfold readInteger
  split
  · exact absurd rfl hne
  · next rest => exact ⟨['-'], rest, true, .minus, rfl, rfl⟩
  · next rest => exact ⟨['+'], rest, false, .plus, rfl, rfl⟩
  · exact ⟨[], cs, false, .absent, rfl, rfl⟩

/-- A sign is not taken for a digit, nor a digit for a sign. -/
theorem readInteger_sign_append {sign digits : List Char} {negative : Bool}
    (hsign : Sign sign negative) (hne : digits ≠ []) (hdigits : ∀ c ∈ digits, c.isDigit = true) :
    readInteger (sign ++ digits) = readSigned negative digits := by
  cases hsign with
  | minus => rfl
  | plus => rfl
  | absent =>
      rw [List.nil_append]
      unfold readInteger
      split
      · exact absurd rfl hne
      · exact absurd (hdigits '-' List.mem_cons_self) (by decide)
      · exact absurd (hdigits '+' List.mem_cons_self) (by decide)
      · rfl

/-- A text is read as a 64-bit integer exactly if it denotes that integer. -/
theorem readInteger_eq_ok_iff {cs : List Char} {n : Int64} :
    readInteger cs = .ok n ↔ Denotes cs n.toInt := by
  constructor
  · intro h
    have hne : cs ≠ [] := by
      rintro rfl
      exact absurd h nofun
    rcases exists_sign hne with ⟨sign, rest, negative, hsign, rfl, hread⟩
    rw [hread] at h
    rcases digits_of_readSigned h with ⟨hrest, hdigits⟩
    rw [(readSigned_eq_ok_iff negative hrest hdigits n).mp h]
    exact .number hsign hrest hdigits
  · intro h
    generalize hk : n.toInt = k at h
    cases h with
    | number hsign hne hdigits =>
        rw [readInteger_sign_append hsign hne hdigits, readSigned_eq_ok_iff _ hne hdigits, hk]

end Numeral

end Decision
