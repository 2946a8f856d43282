/-!
# Outcomes

When a computation that may fail has a value, and when it has an error.

Readers, converters and whole evaluations end in one or the other, and they are
put together in two ways. One goes on with the value of another, or it passes
the error of another on in words of its own. Either way the outcome of the whole
says what the outcomes of the parts were.

## Theorems

* `bind_eq_ok_iff`, `bind_eq_error_iff`: One computation after another.
* `bind_congr_of_ok`: What comes after a computation sees its values only.
* `mapError_eq_ok_iff`, `mapError_eq_error_iff`: Errors in other words.
-/

namespace Decision

section Bind

variable {ε α β : Type} {first : Except ε α} {next : α → Except ε β}

/-- One computation after another succeeds only if both do. -/
theorem exists_of_bind_eq_ok {b : β} (h : (first >>= next) = .ok b) :
    ∃ a, first = .ok a ∧ next a = .ok b := by
  cases first with
  | error e => exact absurd h nofun
  | ok a => exact ⟨a, rfl, h⟩

theorem bind_eq_ok_iff {b : β} :
    (first >>= next) = .ok b ↔ ∃ a, first = .ok a ∧ next a = .ok b := by
  refine ⟨exists_of_bind_eq_ok, ?_⟩
  rintro ⟨a, ha, h⟩
  rw [ha]
  exact h

/-- One computation after another fails if either the first does or the second. -/
theorem bind_eq_error_iff {e : ε} :
    (first >>= next) = .error e ↔
      first = .error e ∨ ∃ a, first = .ok a ∧ next a = .error e := by
  cases first with
  | error e' =>
      show Except.error e' = Except.error e ↔ _
      rw [Except.error.injEq, Except.error.injEq]
      exact (or_iff_left fun ⟨_, h, _⟩ => absurd h nofun).symm
  | ok a =>
      show next a = .error e ↔ _
      constructor
      · exact fun h => Or.inr ⟨a, rfl, h⟩
      · rintro (h | ⟨b, hb, h⟩)
        · exact absurd h nofun
        · rw [Except.ok.inj hb]
          exact h

/-- What comes after a computation matters for the values that it can have. -/
theorem bind_congr_of_ok {next' : α → Except ε β} (h : ∀ a, first = .ok a → next a = next' a) :
    (first >>= next) = (first >>= next') := by
  cases first with
  | error e => rfl
  | ok a => exact h a rfl

end Bind

section MapError

variable {ε ε' α : Type} {outcome : Except ε α} {reword : ε → ε'}

/-- Other words for an error do not touch the values. -/
theorem mapError_eq_ok_iff {a : α} : outcome.mapError reword = .ok a ↔ outcome = .ok a := by
  cases outcome with
  | ok b =>
      show Except.ok b = Except.ok a ↔ _
      rw [Except.ok.injEq, Except.ok.injEq]
  | error e => exact iff_of_false nofun nofun

theorem mapError_eq_error_iff {e' : ε'} :
    outcome.mapError reword = .error e' ↔ ∃ e, outcome = .error e ∧ reword e = e' := by
  cases outcome with
  | ok a => exact iff_of_false nofun fun ⟨_, h, _⟩ => absurd h nofun
  | error e =>
      show Except.error (reword e) = Except.error e' ↔ _
      simp only [Except.error.injEq, exists_eq_left']

end MapError

end Decision
