import Decision.Proofs.Conversion.Kinds
import Decision.Proofs.Evaluation.Origins
import Decision.Proofs.Evaluation.Refusals

/-!
# The Kinds of Inputs and Outputs

What it is worth that a clause declares a basic type.

Declared types are looked at in two places. The inputs are converted before any
cell is evaluated, and the outputs of the rules that count after all cells have
been. In between nothing has a type: the outputs of a rule that matches without
counting are never converted and may be anything. So what a type promises is
about the values that the cells see and the values that are reported, and each
of them is compared with the one it was made of.

The promise is kept by an engine with the standard types, whoever understands
its cells. A null keeps its place under every type. Everything else is of the
kind that the type stands for, unless it has parts. Lists and maps belong to no
basic type, and an evaluation that comes upon one under such a clause ends
there.

Nothing is asked of the clauses that declare other types. A table may mix them
with basic ones, and only an aggregator, which makes a value of its own, is left
out.

## Main definitions

* `Engine.BindsKinds`: The cells of a table see values of the declared kinds.
* `Engine.EntersKinds`: A result has values of the declared kinds.
* `Engine.KeepsKinds`: What basic types are worth in an evaluation.

## Theorems

* `brings_of_convert`: A value that was brought under a clause with a basic type.
* `report_of_hasParts`: What becomes of an evaluation that converts a list or a map.
* `keepsKinds_of_standard`: The standard types keep their promise.
-/

namespace Decision

namespace Engine

variable (engine : Engine) (table : Table) (supplied : Variables)

/-- A context binds the input clauses with basic types to what the types make of the
    variables, and it is the only one that the cells of the table see. -/
structure BindsKinds (context : Context) : Prop where
  run_eq : (Context.ofInputs table.inputs supplied).run engine.reply = .ok context
  brings : ∀ clause ∈ table.inputs, ∀ type : BasicType, clause.typeName = some type.name →
    ∃ value, context.bindings[clause.name]? = some value ∧
      type.Brings (supplied[clause.name]?.getD .null) value
  /-- An input cell is asked about the binding of a clause. -/
  condition : ∀ cell value other, .condition cell value other ∈ engine.calls table supplied →
    other = context ∧ ∃ clause ∈ table.inputs, context.bindings[clause.name]? = some value
  output : ∀ cell other, .output cell other ∈ engine.calls table supplied → other = context

/-- A result of the rule at some place has one entry for every output clause, and under
    a basic type the entry is what the type makes of the value that the cell yields. -/
structure EntersKinds (context : Context) (index : Nat) (result : RuleResult) : Prop where
  names : result.entries.map Prod.fst = table.outputs.map Clause.name
  brings : ∃ rule raws, table.rules[index]? = some rule ∧
    engine.Yields context rule.outputs raws ∧
    ∀ (place : Nat) (clause : Clause .output), table.outputs[place]? = some clause →
      ∀ type : BasicType, clause.typeName = some type.name →
        ∃ raw value, raws[place]? = some raw ∧
          result.entries[place]? = some (clause.name, value) ∧ type.Brings raw value

/-- What basic types are worth in the evaluation of a table. -/
structure KeepsKinds : Prop where
  converter : ∀ type : BasicType, engine.converter? type.name = some type.convert
  report : ∀ report, engine.report table supplied = .ok report →
    ∃ context, engine.BindsKinds table supplied context ∧
      List.Forall₂ (engine.EntersKinds table context) report.selected report.result.rules
  /-- A value with parts cannot be brought under a clause with a basic type. -/
  convert : ∀ (role : Role) (clause : Clause role) (type : BasicType) (raw : Value),
    clause.typeName = some type.name → raw.HasParts →
      engine.convert clause raw =
        .error (.coercion role clause.name type.name raw (.unsupported raw type))
  /-- An evaluation that has one converted fails over it. -/
  refused : ∀ (typeName : String) (converter : Converter) (value : Value),
    .convert typeName converter value ∈ engine.calls table supplied → value.HasParts →
      ∃ role clause type, table.Declares role clause typeName ∧ BasicType.name type = typeName ∧
        engine.report table supplied =
          .error (.coercion role clause typeName value (.unsupported value type))

variable {engine table supplied}

/-! ## What the cells see -/

/-- Every input clause is bound to its value. -/
theorem bindings_context {clause : Clause .input} (hclause : clause ∈ table.inputs) :
    (engine.context table.inputs supplied).bindings[clause.name]? =
      some (engine.bound supplied clause) := by
  have hinput := engine.input_context table.valid.inputs_nodup supplied hclause
  have hmem : clause.name ∈ (engine.context table.inputs supplied).bindings :=
    (engine.mem_bindings_context).mpr (List.mem_map.mpr ⟨clause, hclause, rfl⟩)
  rw [Context.input, Std.ExtTreeMap.getElem?_eq_some_getElem hmem] at hinput
  rw [Std.ExtTreeMap.getElem?_eq_some_getElem hmem]
  exact congrArg some hinput

theorem condition_of_mem_calls {cell : Expression} {value : Value} {context : Context}
    (h : .condition cell value context ∈ engine.calls table supplied) :
    context = engine.context table.inputs supplied ∧
      ∃ clause ∈ table.inputs, value = engine.bound supplied clause := by
  rcases mem_script_cases (mem_script_of_mem_calls h) with
    ⟨_, _, _, hconversion⟩ | ⟨clause, hclause, _, hcall⟩ | ⟨_, hcall⟩
  · rcases mem_conversions_cases hconversion with ⟨_, _, hcall | ⟨_, _, hcall⟩⟩ <;>
      exact absurd hcall nofun
  · cases hcall
    exact ⟨rfl, clause, hclause, rfl⟩
  · exact absurd hcall nofun

theorem output_of_mem_calls {cell : Expression} {context : Context}
    (h : .output cell context ∈ engine.calls table supplied) :
    context = engine.context table.inputs supplied := by
  rcases mem_script_cases (mem_script_of_mem_calls h) with
    ⟨_, _, _, hconversion⟩ | ⟨_, _, _, hcall⟩ | ⟨_, hcall⟩
  · rcases mem_conversions_cases hconversion with ⟨_, _, hcall | ⟨_, _, hcall⟩⟩ <;>
      exact absurd hcall nofun
  · exact absurd hcall nofun
  · cases hcall
    rfl

/-! ## The standard types -/

section Standard

variable (known : engine.converter? = Registry.standard.converter?)

include known

/-- A value that was brought under a clause with a basic type is what the type makes
    of it. -/
theorem brings_of_convert {role : Role} {clause : Clause role} {type : BasicType}
    (htype : clause.typeName = some type.name) {raw value : Value}
    (h : engine.convert clause raw = .ok value) : type.Brings raw value := by
  -- A clause with a type leaves nothing as it is but null.
  rcases convert_eq_ok_iff.mp h with
    ⟨huntyped | hnull, rfl⟩ | ⟨typeName, converter, hname, hraw, hconverter, hvalue⟩
  · rw [htype] at huntyped
    exact absurd huntyped nofun
  · rw [Value.isNull_iff.mp hnull]
    exact type.brings_null
  · rw [htype] at hname
    rw [known, ← Option.some.inj hname, Registry.converter?_standard] at hconverter
    rw [← Option.some.inj hconverter] at hvalue
    have hnot : raw ≠ .null := by
      intro hnull
      rw [hnull] at hraw
      exact absurd hraw.symm Bool.false_ne_true
    exact BasicType.brings_of_convert hnot hvalue

theorem convert_of_hasParts {role : Role} {clause : Clause role} {type : BasicType}
    (htype : clause.typeName = some type.name) {raw : Value} (hparts : raw.HasParts) :
    engine.convert clause raw =
      .error (.coercion role clause.name type.name raw (.unsupported raw type)) := by
  have hnull : raw.isNull = false := by
    cases raw with
    | null => exact absurd hparts id
    | _ => rfl
  rw [convert_eq, htype]
  simp only [hnull, Bool.false_eq_true, if_false, known, Registry.converter?_standard,
    type.convert_of_hasParts hparts]
  rfl

/-- An evaluation that has a list or a map converted fails, and the error holds the
    value as it was. -/
theorem report_of_hasParts {typeName : String} {converter : Converter} {value : Value}
    (hcall : .convert typeName converter value ∈ engine.calls table supplied)
    (hparts : value.HasParts) :
    ∃ role clause type, table.Declares role clause typeName ∧ BasicType.name type = typeName ∧
      engine.report table supplied =
        .error (.coercion role clause typeName value (.unsupported value type)) := by
  rcases mem_script_cases (mem_script_of_mem_calls hcall) with
    ⟨_, _, _, hconversion⟩ | ⟨_, _, _, h⟩ | ⟨_, h⟩
  · rcases mem_conversions_cases hconversion with ⟨_, _, h | ⟨_, hconverter, h⟩⟩
    · cases h
    · cases h
      -- Whatever the clause declares, the converter is that of a basic type.
      rw [known] at hconverter
      rcases Registry.exists_basic_of_standard hconverter with ⟨type, hname, rfl⟩
      have hreply : engine.reply (.convert typeName type.convert value) =
          Except.error (.unsupported value type) := type.convert_of_hasParts hparts
      have hrefused :
          (Call.convert typeName type.convert value).refusedBy engine.reply = true := by
        rw [Call.refusedBy, hreply]
        rfl
      -- The clause in the error need not be the one that was asked about, but it
      -- declares the same type.
      rcases exists_error_of_refused hcall hrefused with
        ⟨e, he, role, clause, reason, hdeclares, hreason, hexplains⟩
      rw [hreply] at hreason
      rw [hexplains, ← Except.error.inj hreason] at he
      exact ⟨role, clause, type, hdeclares, hname, he⟩
  · cases h
  · cases h

/-- Where the evaluation succeeds, the inputs have been converted and bound. -/
theorem bindsKinds_of_report {report : Report}
    (h : engine.report table supplied = .ok report) :
    engine.BindsKinds table supplied (engine.context table.inputs supplied) := by
  have haccounts := accounts_of_report h
  refine ⟨haccounts.context_eq, ?_, ?_, fun cell other hcall => output_of_mem_calls hcall⟩
  · intro clause hclause type htype
    exact ⟨_, bindings_context hclause,
      brings_of_convert known htype (haccounts.bound_eq clause hclause)⟩
  · intro cell value other hcall
    rcases condition_of_mem_calls hcall with ⟨hcontext, clause, hclause, rfl⟩
    exact ⟨hcontext, clause, hclause, bindings_context hclause⟩

/-- A result that comes from a rule of the table has been converted entry by entry. -/
theorem entersKinds_of_comesFrom {context : Context} {row : Row} (hrow : row ∈ table.rows)
    {result : RuleResult} (h : result.ComesFrom engine table context row) :
    engine.EntersKinds table context row.index result := by
  rcases h.entered with ⟨raws, hyields, hentered⟩
  refine ⟨hentered.names, row.rule, raws, Row.mem_listFrom_iff.mp hrow, hyields, ?_⟩
  intro place clause hclause type htype
  rcases hentered.at_place hclause with ⟨raw, value, hraw, hentry, hvalue⟩
  exact ⟨raw, value, hraw, hentry, brings_of_convert known htype hvalue⟩

/-- With the standard types, and whoever understands the cells, the values that cells
    see and those that are reported are of the declared kinds, and lists and maps never
    get so far. -/
theorem keepsKinds_of_standard (plain : table.aggregator = none) :
    engine.KeepsKinds table supplied where
  converter := fun type => by rw [known, Registry.converter?_standard]
  report := by
    intro report hreport
    refine ⟨_, bindsKinds_of_report known hreport, ?_⟩
    refine (forall₂_comesFrom plain hreport).imp ?_
    rintro place result ⟨row, hrow, rfl, hcomes⟩
    exact entersKinds_of_comesFrom known (List.mem_filter.mp hrow).1 hcomes
  convert := fun role clause type raw htype hparts => convert_of_hasParts known htype hparts
  refused := fun typeName converter value hcall hparts => report_of_hasParts known hcall hparts

end Standard

end Engine

/-! ## An instance -/

/-- One rule, with a price given as a text and a remark that is null without a note. -/
def Draft.parcel : Draft where
  id := "parcel"
  inputs := [{ name := "weight", typeName := some "integer" },
    { name := "note", typeName := some "string" }]
  outputs := [{ name := "price", typeName := some "double" },
    { name := "remark", typeName := some "string" }]
  rules := [⟨some "heavy", [.test ⟨">= 20", none⟩, .any], [⟨"\"2.5\"", none⟩, ⟨"note", none⟩]⟩]
  policy := .collect

def Table.parcel : Table := ⟨.parcel, Draft.valid_of_fault?_eq_none (by decide +kernel)⟩

def Report.parcel : Report where
  result := ⟨[⟨some 0, some "heavy", [("price", .float (.ofBits 0x4004000000000000)),
    ("remark", .null)]⟩]⟩
  matched := [0]
  selected := [0]

theorem Engine.keepsKinds_parcel :
    let weighed : Variables := (∅ : Variables).insert "weight" (.float (.ofBits 0x4034000000000000))
    let listed : Variables := (∅ : Variables).insert "weight" (.list [.int 20])
    standard.report .parcel weighed = .ok .parcel ∧
      standard.KeepsKinds .parcel weighed ∧
      .convert "integer" BasicType.integer.convert (.list [.int 20]) ∈
        standard.calls .parcel listed ∧
      standard.KeepsKinds .parcel listed := by
  intro weighed listed
  have hreport : standard.report .parcel weighed = .ok .parcel := by decide +kernel
  have hcall : .convert "integer" BasicType.integer.convert (.list [.int 20]) ∈
      standard.calls .parcel listed := by
    exact List.mem_cons_of_mem _ List.mem_cons_self
  exact ⟨hreport, keepsKinds_of_standard rfl rfl, hcall, keepsKinds_of_standard rfl rfl⟩

end Decision
