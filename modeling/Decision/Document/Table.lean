import Decision.Document.Value
import Decision.Table.Basic

/-!
# Tables as Documents

A table is stored part by part, every part as an object with a field for each
of its components.

What is read back is a draft, and a draft becomes a table in one way only. So a
document can describe a table that makes no sense, but it cannot produce one:
either the document does not have the shape of a draft at all, or the draft is
built and its first fault is reported.

Names and types that are not there may be left out. A table may also leave out
its input clauses, its rules and its policy. Whatever else is missing makes the
document unreadable, and so does anything of the wrong kind and a field that is
there twice.

## Main definitions

* `Draft.toDocument`: A table as it is stored.
* `Draft.ofDocument?`: The draft that is stored in a document.
* `DocumentError`: Why a document is not a table.
* `Table.ofDocument`: The table that is stored in a document.
-/

namespace Decision

namespace Expression

/-- A cell as it is stored. -/
def toDocument (cell : Expression) : Document :=
  .object [("text", .string cell.text), ("language", .ofOption .string cell.language)]

/-- The cell that is stored in a document. -/
def ofDocument? : Document → Option Expression
  | .object fields => do
      let text ← Document.required? fields "text" Document.asString?
      let language ← Document.optional? fields "language" Document.asString?
      return { text, language }
  | _ => none

end Expression

namespace InputEntry

/-- An input cell as it is stored. -/
def toDocument : InputEntry → Document
  | any => .string "Any"
  | test condition => .object [("Test", condition.toDocument)]

/-- The input cell that is stored in a document. -/
def ofDocument? (document : Document) : Option InputEntry :=
  match document with
  | .object [("Test", content)] => (Expression.ofDocument? content).map test
  | _ => if document.unit? = some "Any" then some any else none

end InputEntry

namespace Clause

variable {role : Role}

/-- A clause as it is stored. Its role follows from where it is stored. -/
def toDocument (clause : Clause role) : Document :=
  .object [
    ("name", .string clause.name),
    ("type_ref", .ofOption .string clause.typeName),
    ("values", .array (clause.values.map Value.toDocument))]

/-- The clause that is stored in a document. -/
def ofDocument? : Document → Option (Clause role)
  | .object fields => do
      let name ← Document.required? fields "name" Document.asString?
      let typeName ← Document.optional? fields "type_ref" Document.asString?
      let values ← Document.required? fields "values" (Document.asList? Value.ofDocument?)
      return { name, typeName, values }
  | _ => none

end Clause

namespace Rule

/-- A rule as it is stored. -/
def toDocument (rule : Rule) : Document :=
  .object [
    ("id", .ofOption .string rule.id),
    ("inputs", .array (rule.inputs.map InputEntry.toDocument)),
    ("outputs", .array (rule.outputs.map Expression.toDocument))]

/-- The rule that is stored in a document. -/
def ofDocument? : Document → Option Rule
  | .object fields => do
      let id ← Document.optional? fields "id" Document.asString?
      let inputs ← Document.required? fields "inputs" (Document.asList? InputEntry.ofDocument?)
      let outputs ← Document.required? fields "outputs" (Document.asList? Expression.ofDocument?)
      return { id, inputs, outputs }
  | _ => none

end Rule

namespace HitPolicy

/-- The name under which a policy is stored. -/
def storedName : HitPolicy → String
  | unique => "Unique"
  | any => "Any"
  | first => "First"
  | priority => "Priority"
  | collect => "Collect"
  | ruleOrder => "RuleOrder"
  | outputOrder => "OutputOrder"

/-- The policy that is stored in a document. -/
def ofDocument? (document : Document) : Option HitPolicy := do
  match ← document.unit? with
  | "Unique" => some unique
  | "Any" => some any
  | "First" => some first
  | "Priority" => some priority
  | "Collect" => some collect
  | "RuleOrder" => some ruleOrder
  | "OutputOrder" => some outputOrder
  | _ => none

end HitPolicy

namespace Aggregator

/-- The name under which a folding is stored. -/
def storedName : Aggregator → String
  | sum => "Sum"
  | min => "Min"
  | max => "Max"
  | count => "Count"

/-- The folding that is stored in a document. -/
def ofDocument? (document : Document) : Option Aggregator := do
  match ← document.unit? with
  | "Sum" => some sum
  | "Min" => some min
  | "Max" => some max
  | "Count" => some count
  | _ => none

end Aggregator

namespace Draft

/-- A table as it is stored. -/
def toDocument (draft : Draft) : Document :=
  .object [
    ("id", .string draft.id),
    ("name", .ofOption .string draft.name),
    ("inputs", .array (draft.inputs.map Clause.toDocument)),
    ("outputs", .array (draft.outputs.map Clause.toDocument)),
    ("rules", .array (draft.rules.map Rule.toDocument)),
    ("hit_policy", .string draft.policy.storedName),
    ("aggregator", .ofOption (fun aggregator => .string aggregator.storedName) draft.aggregator)]

/-- The draft that is stored in a document. -/
def ofDocument? : Document → Option Draft
  | .object fields => do
      let id ← Document.required? fields "id" Document.asString?
      let name ← Document.optional? fields "name" Document.asString?
      let inputs ← Document.withDefault? fields "inputs" [] (Document.asList? Clause.ofDocument?)
      let outputs ← Document.required? fields "outputs" (Document.asList? Clause.ofDocument?)
      let rules ← Document.withDefault? fields "rules" [] (Document.asList? Rule.ofDocument?)
      let policy ← Document.withDefault? fields "hit_policy" .unique HitPolicy.ofDocument?
      let aggregator ← Document.optional? fields "aggregator" Aggregator.ofDocument?
      return { id, name, inputs, outputs, rules, policy, aggregator }
  | _ => none

end Draft

/-- Why a document is not a table. -/
inductive DocumentError where
  /-- It does not have the shape of one. -/
  | shape
  /-- It has the shape, but the parts do not fit. -/
  | table (fault : TableError)
deriving DecidableEq, Repr

/-- The table that is stored in a document. -/
def Table.ofDocument (document : Document) : Except DocumentError Table :=
  match Draft.ofDocument? document with
  | none => .error .shape
  | some draft => draft.build.mapError .table

end Decision
