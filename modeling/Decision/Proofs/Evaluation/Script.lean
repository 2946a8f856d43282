import Decision.Evaluation.Consultation

/-!
# Scripts

What an evaluation asks, written down as a list before anyone answers.

A consultation is a tree, and which of its questions are asked depends on the
replies. For given replies, though, every stage of an evaluation asks from a
list that can be named without walking the tree, and stops early in one case
only: a reply that is a refusal ends it. `Follows` says this of a consultation.
It names the list, the script, and the outcome that is reached if nobody
refuses.

Outcomes are allowed to be errors. Some decisions are made without asking
anyone, as when several rules match where one has to, and such an error ends
the script without being a refusal. With it inside the outcome, the rules for
composition are two: after a value the scripts are joined, and after an error
the second script is dropped.

The script goes on after a refusal as though nothing had happened, so nothing
that depends on a refused reply has to be left out of it. Cutting is done once,
at the end, by `throughFirst`.

## Main definitions

* `throughFirst`: A list up to and including the first item with a property.
* `Call.isRefusal`: Whether a reply ends the evaluation.
* `Consultation.Follows`: A consultation asks a script until someone refuses.

## Theorems

* `throughFirst_append_of_mem`, `throughFirst_append_of_forall`: Where a list is
  cut if it is put together from two.
* `follows_bind`, `follows_map`, `follows_bind_error`: One consultation after
  another.
* `follows_ask_of_refusal`: After a refusal the script does not matter.
* `follows_ask_once`: A single question.
* `follows_of_run_eq_ok`: An evaluation with a result was not refused anything.
-/

namespace Decision

/-! ## Cutting a list -/

section ThroughFirst

variable {α : Type}

/-- The items up to and including the first that has a property, or all of them
    if none has. -/
def throughFirst (p : α → Bool) : List α → List α
  | [] => []
  | x :: xs => if p x then [x] else x :: throughFirst p xs

/-- A list without the property is not cut. -/
theorem throughFirst_eq_self {p : α → Bool} {xs : List α} (h : ∀ x ∈ xs, p x = false) :
    throughFirst p xs = xs := by
  induction xs with
  | nil => rfl
  | cons y ys ih =>
      have hy : ¬ p y = true := by
        rw [h y List.mem_cons_self]
        exact Bool.false_ne_true
      rw [throughFirst, if_neg hy, ih fun x hx => h x (List.mem_cons_of_mem y hx)]

/-- If the first part is cut, the second is gone. -/
theorem throughFirst_append_of_mem {p : α → Bool} {xs ys : List α} (h : ∃ x ∈ xs, p x = true) :
    throughFirst p (xs ++ ys) = throughFirst p xs := by
  induction xs with
  | nil =>
      rcases h with ⟨x, hx, _⟩
      exact absurd hx List.not_mem_nil
  | cons y zs ih =>
      simp only [List.cons_append, throughFirst]
      by_cases hy : p y = true
      · rw [if_pos hy, if_pos hy]
      · rw [if_neg hy, if_neg hy]
        rcases h with ⟨x, hx, hp⟩
        rcases List.mem_cons.mp hx with rfl | hx
        · exact absurd hp hy
        · rw [ih ⟨x, hx, hp⟩]

/-- If the first part is not cut, the second is cut by itself. -/
theorem throughFirst_append_of_forall {p : α → Bool} {xs ys : List α}
    (h : ∀ x ∈ xs, p x = false) : throughFirst p (xs ++ ys) = xs ++ throughFirst p ys := by
  induction xs with
  | nil => rfl
  | cons y zs ih =>
      have hy : ¬ p y = true := by
        rw [h y List.mem_cons_self]
        exact Bool.false_ne_true
      simp only [List.cons_append, throughFirst]
      rw [if_neg hy, ih fun x hx => h x (List.mem_cons_of_mem y hx)]

theorem mem_of_mem_throughFirst {p : α → Bool} {xs : List α} {x : α}
    (h : x ∈ throughFirst p xs) : x ∈ xs := by
  induction xs with
  | nil => exact h
  | cons y ys ih =>
      rw [throughFirst] at h
      by_cases hy : p y = true
      · rw [if_pos hy, List.mem_singleton] at h
        rw [h]
        exact List.mem_cons_self
      · rw [if_neg hy] at h
        rcases List.mem_cons.mp h with rfl | hx
        · exact List.mem_cons_self
        · exact List.mem_cons_of_mem y (ih hx)

end ThroughFirst

/-! ## Refusals -/

/-- Whether a reply ends the evaluation that gets it: a type that nobody knows,
    a value that is not converted, or a cell that has no answer. -/
def Call.isRefusal : (call : Call) → call.Reply → Bool
  | .lookup _, reply => Option.isNone reply
  | .convert .., reply => !Except.isOk reply
  | .condition .., reply => !Except.isOk reply
  | .output .., reply => !Except.isOk reply

/-- Whether a question is refused by whoever gives these replies. -/
def Call.refusedBy (reply : (call : Call) → call.Reply) (call : Call) : Bool :=
  call.isRefusal (reply call)

namespace Consultation

variable {α β : Type} {reply : (call : Call) → call.Reply}

/-- A consultation asks the questions of a script in their order until one is
    refused, and has a given outcome if none is. -/
structure Follows (reply : (call : Call) → call.Reply) (c : Consultation α) (script : List Call)
    (outcome : Except EvalError α) : Prop where
  calls_eq : c.calls reply = throughFirst (Call.refusedBy reply) script
  run_eq : (∀ call ∈ script, call.refusedBy reply = false) → c.run reply = outcome
  run_error : (∃ call ∈ script, call.refusedBy reply = true) → ∃ e, c.run reply = .error e

theorem forall_of_not_exists {script : List Call}
    (h : ¬ ∃ call ∈ script, call.refusedBy reply = true) :
    ∀ call ∈ script, call.refusedBy reply = false :=
  fun call hcall => Bool.eq_false_iff.mpr fun hr => h ⟨call, hcall, hr⟩

/-- An outcome that is there already is reached without a question. -/
theorem follows_done (outcome : Except EvalError α) : Follows reply (done outcome) [] outcome where
  calls_eq := rfl
  run_eq := fun _ => rfl
  run_error := fun ⟨_, hcall, _⟩ => absurd hcall List.not_mem_nil

theorem follows_pure (a : α) : Follows reply (pure a) [] (.ok a) := follows_done (.ok a)

/-- After a value, one script is followed after the other. -/
theorem follows_bind {c : Consultation α} {next : α → Consultation β} {first second : List Call}
    {a : α} {outcome : Except EvalError β} (hc : Follows reply c first (.ok a))
    (hnext : Follows reply (next a) second outcome) :
    Follows reply (c >>= next) (first ++ second) outcome := by
  by_cases h : ∃ call ∈ first, call.refusedBy reply = true
  · -- The first consultation is cut short, and nothing of the second is asked.
    rcases hc.run_error h with ⟨e, he⟩
    refine ⟨?_, ?_, fun _ => ⟨e, by rw [run_bind, he]; rfl⟩⟩
    · rw [calls_bind, he, hc.calls_eq, List.append_nil, throughFirst_append_of_mem h]
    · intro hall
      rcases h with ⟨call, hcall, hr⟩
      rw [hall call (List.mem_append_left second hcall)] at hr
      exact absurd hr Bool.false_ne_true
  · have hnone := forall_of_not_exists h
    have hrun : c.run reply = .ok a := hc.run_eq hnone
    have hbind : (c >>= next).run reply = (next a).run reply := by
      rw [run_bind, hrun]
      rfl
    refine ⟨?_, ?_, ?_⟩
    · rw [calls_bind, hrun, throughFirst_append_of_forall hnone, hc.calls_eq,
        throughFirst_eq_self hnone, ← hnext.calls_eq]
    · intro hall
      rw [hbind, hnext.run_eq fun call hcall => hall call (List.mem_append_right first hcall)]
    · rintro ⟨call, hcall, hr⟩
      rw [hbind]
      rcases List.mem_append.mp hcall with hcall | hcall
      · exact absurd ⟨call, hcall, hr⟩ h
      · exact hnext.run_error ⟨call, hcall, hr⟩

/-- What is done with a value without asking anyone leaves the script as it is. -/
theorem follows_bind_silent {c : Consultation α} {next : α → Consultation β} {script : List Call}
    {a : α} {outcome : Except EvalError β} (hc : Follows reply c script (.ok a))
    (hnext : Follows reply (next a) [] outcome) : Follows reply (c >>= next) script outcome := by
  have h := follows_bind hc hnext
  rw [List.append_nil] at h
  exact h

theorem follows_map {c : Consultation α} {script : List Call} {a : α}
    (hc : Follows reply c script (.ok a)) (f : α → β) :
    Follows reply (c >>= fun a => pure (f a)) script (.ok (f a)) :=
  follows_bind_silent hc (follows_pure (f a))

/-- After an error that is nobody's refusal, nothing more is asked. -/
theorem follows_bind_error {c : Consultation α} {next : α → Consultation β} {script : List Call}
    {e : EvalError} (hc : Follows reply c script (.error e)) :
    Follows reply (c >>= next) script (.error e) := by
  have herror : ∃ e', c.run reply = .error e' := by
    by_cases h : ∃ call ∈ script, call.refusedBy reply = true
    · exact hc.run_error h
    · exact ⟨e, hc.run_eq (forall_of_not_exists h)⟩
  rcases herror with ⟨e', he'⟩
  have hbind : (c >>= next).run reply = .error e' := by
    rw [run_bind, he']
    rfl
  refine ⟨?_, ?_, fun _ => ⟨e', hbind⟩⟩
  · rw [calls_bind, he', List.append_nil, hc.calls_eq]
  · intro hall
    have heq : Except.error e' = (Except.error e : Except EvalError α) := by
      rw [← he', hc.run_eq hall]
    rw [hbind, Except.error.inj heq]

/-- What is decided without asking anyone may also be an error. -/
theorem follows_done_bind (decision : Except EvalError α) (f : α → β) :
    Follows reply (done decision >>= fun a => pure (f a)) []
      (decision >>= fun a => pure (f a)) := by
  cases decision with
  | ok a => exact follows_pure (f a)
  | error e => exact follows_done (.error e)

/-- A refused question is the last one, whatever stands after it in the
    script. -/
theorem follows_ask_of_refusal {call : Call} {next : call.Reply → Consultation α} {e : EvalError}
    (hrefused : call.refusedBy reply = true) (hend : next (reply call) = done (.error e))
    (script : List Call) (outcome : Except EvalError α) :
    Follows reply (ask call next) (call :: script) outcome := by
  refine ⟨?_, ?_, fun _ => ⟨e, by rw [run, hend, run]⟩⟩
  · rw [calls, hend, calls, throughFirst, if_pos hrefused]
  · intro hall
    rw [hall call List.mem_cons_self] at hrefused
    exact absurd hrefused Bool.false_ne_true

/-- A question that is not refused is followed by what its reply leads to. -/
theorem follows_ask {call : Call} {next : call.Reply → Consultation α} {script : List Call}
    {outcome : Except EvalError α} (hrefused : call.refusedBy reply = false)
    (hnext : Follows reply (next (reply call)) script outcome) :
    Follows reply (ask call next) (call :: script) outcome := by
  refine ⟨?_, ?_, ?_⟩
  · rw [calls, hnext.calls_eq, throughFirst, if_neg (by rw [hrefused]; exact Bool.false_ne_true)]
  · intro hall
    rw [run, hnext.run_eq fun other hother => hall other (List.mem_cons_of_mem call hother)]
  · rintro ⟨other, hother, hr⟩
    rw [run]
    rcases List.mem_cons.mp hother with rfl | hother
    · rw [hrefused] at hr
      exact absurd hr Bool.false_ne_true
    · exact hnext.run_error ⟨other, hother, hr⟩

/-- A single question, whose reply is either a value or a refusal. -/
theorem follows_ask_once {call : Call} {next : call.Reply → Consultation α} (a : α)
    (hvalue : call.refusedBy reply = false → next (reply call) = done (.ok a))
    (hrefusal : call.refusedBy reply = true → ∃ e, next (reply call) = done (.error e)) :
    Follows reply (ask call next) [call] (.ok a) := by
  by_cases h : call.refusedBy reply = true
  · rcases hrefusal h with ⟨e, he⟩
    exact follows_ask_of_refusal h he [] (.ok a)
  · have hnot : call.refusedBy reply = false := Bool.eq_false_iff.mpr h
    refine follows_ask hnot ?_
    rw [hvalue hnot]
    exact follows_done (.ok a)

theorem ofExpression_of_isOk {answer : Except ExpressionError α} (h : (!answer.isOk) = false)
    (other : α) : ofExpression answer = done (.ok (answer.toOption.getD other)) := by
  cases answer with
  | ok a => rfl
  | error reason => exact absurd h.symm Bool.false_ne_true

theorem ofExpression_of_not_isOk {answer : Except ExpressionError α} (h : (!answer.isOk) = true) :
    ∃ e, ofExpression answer = done (.error e) := by
  cases answer with
  | ok a => exact absurd h Bool.false_ne_true
  | error reason => exact ⟨.expression reason, rfl⟩

/-- An evaluation with a result was not refused anything, and the result is the
    one that the script leads to. -/
theorem follows_of_run_eq_ok {c : Consultation α} {script : List Call}
    {outcome : Except EvalError α} {a : α} (hc : Follows reply c script outcome)
    (hrun : c.run reply = .ok a) :
    (∀ call ∈ script, call.refusedBy reply = false) ∧ outcome = .ok a := by
  by_cases h : ∃ call ∈ script, call.refusedBy reply = true
  · rcases hc.run_error h with ⟨e, he⟩
    rw [he] at hrun
    exact absurd hrun (by simp only [reduceCtorEq, not_false_eq_true])
  · have hnone := forall_of_not_exists h
    exact ⟨hnone, by rw [← hc.run_eq hnone, hrun]⟩

end Consultation

end Decision
