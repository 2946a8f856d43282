import Decision.Text.Blank

/-!
# Hit Policies

What a table makes of the rules that match, and the names for it.

A hit policy decides which of the matching rules count. Under four of the seven
at most one rule does; the other three let several through. An aggregator folds
the values of the rules that count into one.

A name is read generously: blanks around it, the case of its letters, and the
choice between a space, a hyphen and an underscore inside it do not matter. It
is written in one way only, with a space.

## Main definitions

* `HitPolicy`, `Aggregator`: The policies and the foldings.
* `HitPolicy.text`, `Aggregator.text`: Their names as written.
* `HitPolicy.ofName`, `Aggregator.ofName`: The policy or folding of a name.
* `UnknownName`: A name of neither.
-/

namespace Decision

/-- Which of the matching rules count. -/
inductive HitPolicy where
  /-- Exactly one rule matches, and it counts. -/
  | unique
  /-- All matching rules agree, and the first counts. -/
  | any
  /-- The first matching rule counts. -/
  | first
  /-- The matching rule whose outputs rank highest counts. -/
  | priority
  /-- All matching rules count, and may be folded into one value. -/
  | collect
  /-- All matching rules count, in the order of the table. -/
  | ruleOrder
  /-- All matching rules count, in the order of their outputs' rank. -/
  | outputOrder
deriving DecidableEq, Repr

/-- How the values of the rules that count are folded into one. -/
inductive Aggregator where
  | sum
  | min
  | max
  | count
deriving DecidableEq, Repr

/-- A name that is not the name of anything of its sort. -/
structure UnknownName where
  /-- What the name was supposed to be the name of. -/
  sort : String
  name : String
deriving DecidableEq, Repr

/-- The wording of the complaint. -/
def UnknownName.message (unknown : UnknownName) : String :=
  s!"unknown {unknown.sort} '{unknown.name}'"

/-- A name with its inessential differences removed. -/
def plainName (name : String) : String :=
  String.ofList <| (Text.trim name.toList).map fun c =>
    if c == ' ' || c == '-' then '_' else c.toUpper

namespace HitPolicy

/-- Whether a policy can let several rules through. -/
def isMultiple : HitPolicy → Bool
  | collect => true
  | ruleOrder => true
  | outputOrder => true
  | _ => false

/-- The name of a policy. -/
def text : HitPolicy → String
  | unique => "UNIQUE"
  | any => "ANY"
  | first => "FIRST"
  | priority => "PRIORITY"
  | collect => "COLLECT"
  | ruleOrder => "RULE ORDER"
  | outputOrder => "OUTPUT ORDER"

/-- The policy of a name. -/
def ofName (name : String) : Except UnknownName HitPolicy :=
  match plainName name with
  | "UNIQUE" => .ok unique
  | "ANY" => .ok any
  | "FIRST" => .ok first
  | "PRIORITY" => .ok priority
  | "COLLECT" => .ok collect
  | "RULE_ORDER" => .ok ruleOrder
  | "OUTPUT_ORDER" => .ok outputOrder
  | _ => .error ⟨"hit policy", name⟩

end HitPolicy

namespace Aggregator

/-- The name of a folding. -/
def text : Aggregator → String
  | sum => "SUM"
  | min => "MIN"
  | max => "MAX"
  | count => "COUNT"

/-- The folding of a name. -/
def ofName (name : String) : Except UnknownName Aggregator :=
  match plainName name with
  | "SUM" => .ok sum
  | "MIN" => .ok min
  | "MAX" => .ok max
  | "COUNT" => .ok count
  | _ => .error ⟨"aggregator", name⟩

end Aggregator

end Decision
