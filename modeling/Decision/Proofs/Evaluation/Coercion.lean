import Decision.Proofs.Evaluation.Stages
import Decision.Proofs.Outcome

/-!
# Coercions

The two ends of an evaluation, where values are brought under their clauses.

At the beginning the input clauses are bound one after the other, and at the end
the outputs of the rules that count are converted one after the other. What is
done to a single value is the same at both ends, and it depends on nothing but
the clause and the value: `Engine.convert` is its outcome. So both ends are
lists of single conversions. If all of them succeed the end succeeds, with every
value in its place. Otherwise the first that fails is the error, and it does not
matter what the conversions after it would have been.

`Engine.coerced` is the value of a conversion that succeeds. It is total, which
is convenient where success is known already.

## Main definitions

* `Engine.convert`: The outcome of bringing a value under a clause.
* `Engine.firstRefusal`: The first error among several conversions.
* `Candidate.under`: The outputs of a rule, each with its clause.

## Theorems

* `convert_eq_ok_iff`: The two ways in which a value can be brought under a clause.
* `run_ofInputs_of_convert`: Inputs that can be converted can be bound.
* `run_results`: The results of the rules that count, or the first error.
* `firstRefusal_eq_some_iff`: What it means to be the first error.
-/

namespace Decision

open Consultation

namespace Engine

variable (engine : Engine)

section Convert

variable {role : Role}

/-- The outcome of bringing a value under a clause. -/
def convert (clause : Clause role) (raw : Value) : Except EvalError Value :=
  (clause.coerce raw).run engine.reply

/-- The error of bringing a value under a clause, if there is one. -/
def refusal? (clause : Clause role) (raw : Value) : Option EvalError :=
  match engine.convert clause raw with
  | .ok _ => none
  | .error e => some e

/-- The first error among several values, each with its clause. -/
def firstRefusal (pairs : List (Clause role × Value)) : Option EvalError :=
  pairs.findSome? fun pair => engine.refusal? pair.1 pair.2

variable {engine} {clause : Clause role} {raw value : Value}

/-- A conversion that succeeds yields the coerced value. -/
theorem coerced_of_convert (h : engine.convert clause raw = .ok value) :
    engine.coerced clause raw = value := by
  rcases follows_of_run_eq_ok (engine.follows_coerce clause raw) h with ⟨_, hvalue⟩
  exact Except.ok.inj hvalue

/-- Without a declared type there is nothing to convert. -/
theorem convert_of_untyped (h : clause.typeName = none) (raw : Value) :
    engine.convert clause raw = .ok raw := by
  unfold convert Clause.coerce
  rw [h]
  rfl

/-- The outcome of bringing a value under a clause, written out. -/
theorem convert_eq (clause : Clause role) (raw : Value) :
    engine.convert clause raw =
      match clause.typeName with
      | none => .ok raw
      | some typeName =>
          if raw.isNull then .ok raw
          else
            match engine.converter? typeName with
            | none => .error (.unknownType role clause.name typeName)
            | some converter =>
                (converter raw).mapError (.coercion role clause.name typeName raw) := by
  unfold convert Clause.coerce
  cases clause.typeName with
  | none => rfl
  | some typeName =>
      cases hnull : raw.isNull with
      | true => rfl
      | false =>
          simp only [Bool.false_eq_true, if_false, run_bind]
          -- The type is looked up, and its converter is asked if there is one.
          have hlookup : (lookup typeName).run engine.reply = .ok (engine.converter? typeName) :=
            rfl
          rw [hlookup]
          cases engine.converter? typeName with
          | none => rfl
          | some converter =>
              show ((Consultation.convert typeName converter raw >>= _).run engine.reply) =
                (converter raw).mapError _
              have hconvert : (Consultation.convert typeName converter raw).run engine.reply =
                  .ok (converter raw) := rfl
              rw [run_bind, hconvert]
              cases converter raw with
              | ok value => rfl
              | error reason => rfl

/-- A value can be brought under a clause in two ways: as it is, because no type is
    declared or it is null, or by the converter of the type. -/
theorem convert_eq_ok_iff :
    engine.convert clause raw = .ok value ↔
      ((clause.typeName = none ∨ raw.isNull = true) ∧ raw = value) ∨
      ∃ typeName converter, clause.typeName = some typeName ∧ raw.isNull = false ∧
        engine.converter? typeName = some converter ∧ converter raw = .ok value := by
  rw [convert_eq]
  cases clause.typeName with
  | none =>
      simp only [Except.ok.injEq, true_or, true_and, reduceCtorEq, false_and, exists_const,
        or_false]
  | some typeName =>
      dsimp only
      cases raw.isNull with
      | true =>
          simp only [if_true, Except.ok.injEq, or_true, true_and, Bool.true_eq_false, false_and,
            and_false, exists_const, or_false]
      | false =>
          simp only [Bool.false_eq_true, if_false, reduceCtorEq, or_self, false_and, false_or,
            Option.some.injEq, true_and, exists_and_left, exists_eq_left']
          cases hconverter : engine.converter? typeName with
          | none => simp only [reduceCtorEq, false_and, exists_const]
          | some converter =>
              simp only [mapError_eq_ok_iff, Option.some.injEq, exists_eq_left']

/-- No question about a value is refused exactly if it can be brought under its
    clause. -/
theorem conversions_quiet_iff :
    (∀ call ∈ engine.conversions clause raw, call.refusedBy engine.reply = false) ↔
      ∃ value, engine.convert clause raw = .ok value := by
  have hfollows := engine.follows_coerce clause raw
  constructor
  · intro hquiet
    exact ⟨_, hfollows.run_eq hquiet⟩
  · rintro ⟨value, hvalue⟩
    exact (follows_of_run_eq_ok hfollows hvalue).1

theorem refusal?_eq_none_iff :
    engine.refusal? clause raw = none ↔ ∃ value, engine.convert clause raw = .ok value := by
  unfold refusal?
  cases engine.convert clause raw with
  | ok value => exact iff_of_true rfl ⟨value, rfl⟩
  | error e => exact iff_of_false nofun nofun

theorem refusal?_eq_some_iff {e : EvalError} :
    engine.refusal? clause raw = some e ↔ engine.convert clause raw = .error e := by
  unfold refusal?
  cases engine.convert clause raw with
  | ok value => exact iff_of_false nofun nofun
  | error e' => rw [Option.some.injEq, Except.error.injEq]

theorem firstRefusal_eq_none_iff {pairs : List (Clause role × Value)} :
    engine.firstRefusal pairs = none ↔
      ∀ pair ∈ pairs, ∃ value, engine.convert pair.1 pair.2 = .ok value := by
  rw [firstRefusal, List.findSome?_eq_none_iff]
  exact forall₂_congr fun pair _ => refusal?_eq_none_iff

theorem firstRefusal_append (first second : List (Clause role × Value)) :
    engine.firstRefusal (first ++ second) =
      (engine.firstRefusal first).or (engine.firstRefusal second) := List.findSome?_append

theorem firstRefusal_cons (clause : Clause role) (raw : Value)
    (pairs : List (Clause role × Value)) :
    engine.firstRefusal ((clause, raw) :: pairs) =
      (engine.refusal? clause raw).or (engine.firstRefusal pairs) := by
  rw [firstRefusal, List.findSome?_cons]
  cases engine.refusal? clause raw with
  | none => rfl
  | some e => rfl

/-- The first error comes from a conversion before which all succeed. -/
theorem firstRefusal_eq_some_iff {pairs : List (Clause role × Value)} {e : EvalError} :
    engine.firstRefusal pairs = some e ↔
      ∃ before pair after, pairs = before ++ pair :: after ∧
        (∀ earlier ∈ before, ∃ value, engine.convert earlier.1 earlier.2 = .ok value) ∧
        engine.convert pair.1 pair.2 = .error e := by
  rw [firstRefusal, List.findSome?_eq_some_iff]
  constructor
  · rintro ⟨before, pair, after, hpairs, hpair, hbefore⟩
    exact ⟨before, pair, after, hpairs, fun earlier hearlier =>
      refusal?_eq_none_iff.mp (hbefore earlier hearlier), refusal?_eq_some_iff.mp hpair⟩
  · rintro ⟨before, pair, after, hpairs, hbefore, hpair⟩
    exact ⟨before, pair, after, hpairs, refusal?_eq_some_iff.mpr hpair, fun earlier hearlier =>
      refusal?_eq_none_iff.mpr (hbefore earlier hearlier)⟩

end Convert

/-! ## Inputs -/

section Inputs

variable {engine}

theorem run_bindInputs_of_convert {inputs : List (Clause .input)} (context : Context)
    (h : ∀ clause ∈ inputs, ∃ value,
      engine.convert clause (context.variables[clause.name]?.getD .null) = .ok value) :
    (context.bindInputs inputs).run engine.reply =
      .ok (inputs.foldl (fun context' clause =>
        context'.bind clause.name (engine.bound context.variables clause)) context) := by
  induction inputs generalizing context with
  | nil => rfl
  | cons clause clauses ih =>
      rcases h clause List.mem_cons_self with ⟨value, hvalue⟩
      have hbound : engine.bound context.variables clause = value := coerced_of_convert hvalue
      have hrest : ∀ other ∈ clauses, ∃ value, engine.convert other
          ((context.bind clause.name value).variables[other.name]?.getD .null) = .ok value :=
        fun other hother => h other (List.mem_cons_of_mem clause hother)
      have hrun : (clause.coerce (context.variables[clause.name]?.getD .null)).run engine.reply =
          .ok value := hvalue
      simp only [Context.bindInputs, run_bind, hrun, List.foldl_cons, hbound]
      exact ih (context.bind clause.name value) hrest

/-- Where every input can be converted, every input clause is bound. -/
theorem run_ofInputs_of_convert {inputs : List (Clause .input)} {supplied : Variables}
    (h : ∀ clause ∈ inputs, ∃ value,
      engine.convert clause (supplied[clause.name]?.getD .null) = .ok value) :
    (Context.ofInputs inputs supplied).run engine.reply = .ok (engine.context inputs supplied) :=
  run_bindInputs_of_convert (.ofVariables supplied) h

end Inputs

end Engine

/-! ## Outputs -/

/-- The outputs of a rule, each with its clause. -/
def Candidate.under (clauses : List (Clause .output)) (candidate : Candidate) :
    List (Clause .output × Value) := clauses.zip candidate.outputs

namespace Engine

variable (engine : Engine)

/-- The entries of a rule that counts, or the first error among them. -/
theorem run_entries (clauses : List (Clause .output)) (raws : List Value) :
    (Clause.entries clauses raws).run engine.reply =
      match engine.firstRefusal (clauses.zip raws) with
      | some e => .error e
      | none => .ok (engine.entries clauses raws) := by
  induction clauses generalizing raws with
  | nil => rfl
  | cons clause clauses ih =>
      cases raws with
      | nil => rfl
      | cons raw raws =>
          simp only [Clause.entries, run_bind, List.zip_cons_cons, firstRefusal_cons]
          show (engine.convert clause raw >>= _) = _
          cases hfirst : engine.convert clause raw with
          | error e =>
              rw [refusal?_eq_some_iff.mpr hfirst]
              rfl
          | ok value =>
              have hvalue : engine.coerced clause raw = value := coerced_of_convert hfirst
              rw [refusal?_eq_none_iff.mpr ⟨value, hfirst⟩, Option.none_or, entries,
                List.zipWith_cons_cons, hvalue]
              show ((Clause.entries clauses raws).run engine.reply >>= _) = _
              -- What is left depends on the first error among the other entries.
              rw [ih raws]
              cases engine.firstRefusal (clauses.zip raws) with
              | some e => rfl
              | none => rfl

/-- The entries of a rule stand under the names of the clauses. -/
theorem map_fst_entries {clauses : List (Clause .output)} {raws : List Value}
    (h : raws.length = clauses.length) :
    (engine.entries clauses raws).map Prod.fst = clauses.map Clause.name := by
  induction clauses generalizing raws with
  | nil => rfl
  | cons clause clauses ih =>
      cases raws with
      | nil => exact absurd h (Nat.succ_ne_zero _).symm
      | cons raw raws =>
          have hrest := ih (Nat.succ.inj h)
          simp only [entries, List.zipWith_cons_cons, List.map_cons] at hrest ⊢
          rw [hrest]

/-- The values of the entries are the coerced outputs. -/
theorem map_snd_entries (clauses : List (Clause .output)) (raws : List Value) :
    (engine.entries clauses raws).map Prod.snd =
      (clauses.zip raws).map fun pair => engine.coerced pair.1 pair.2 := by
  rw [entries, List.map_zipWith, List.zip, List.map_zipWith]

/-- The results of the rules that count, or the first error among their outputs,
    rule by rule and clause by clause. -/
theorem run_results (clauses : List (Clause .output)) (candidates : List Candidate) :
    (Candidate.results clauses candidates).run engine.reply =
      match engine.firstRefusal (candidates.flatMap (Candidate.under clauses)) with
      | some e => .error e
      | none => .ok (candidates.map (engine.ruleResult clauses)) := by
  induction candidates with
  | nil => rfl
  | cons candidate candidates ih =>
      rw [List.flatMap_cons, firstRefusal_append, Candidate.under]
      simp only [Candidate.results, run_bind, engine.run_entries clauses candidate.outputs]
      cases engine.firstRefusal (clauses.zip candidate.outputs) with
      | some e => rfl
      | none =>
          show ((Candidate.results clauses candidates).run engine.reply >>= _) = _
          rw [ih, Option.none_or]
          cases engine.firstRefusal (candidates.flatMap (Candidate.under clauses)) with
          | some e => rfl
          | none => rfl

end Engine

end Decision
