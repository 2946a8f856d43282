import Decision.Value.Identity
import Decision.Value.Text

/-!
# Results

What an evaluation yields, and how to get at it.

A result holds an entry for every output clause from each rule that counts. A
folded result comes from no rule in particular, so it has neither an index nor
an id. Callers that expect at most one value can ask for it and are told if
there are more.

## Main definitions

* `RuleResult`: The outputs of one rule.
* `Result`: The outputs of all rules that count.
* `Result.singleResult`, `Result.singleEntry`: The one there is, if any.
* `Result.column`: The values under one name.
* `Report`: A result together with the rules it came from.
-/

namespace Decision

/-- More than one where at most one was expected. -/
inductive ResultError where
  | multipleResults (count : Nat)
  | multipleEntries (count : Nat)
deriving DecidableEq, Repr

/-- The wording of the complaint. -/
def ResultError.message : ResultError → String
  | .multipleResults count => s!"expected at most one rule result but found {count}"
  | .multipleEntries count => s!"expected at most one output entry but found {count}"

/-- The outputs of one rule, by clause. -/
structure RuleResult where
  /-- The place of the rule in its table, counted from zero. -/
  index : Option Nat
  id : Option String
  entries : List (String × Value)
deriving DecidableEq

namespace RuleResult

/-- The value under a name. -/
def get? (result : RuleResult) (name : String) : Option Value :=
  (result.entries.find? fun entry => entry.1 == name).map Prod.snd

/-- The only value, if there is one. -/
def singleEntry (result : RuleResult) : Except ResultError (Option Value) :=
  match result.entries with
  | [] => .ok none
  | [(_, value)] => .ok (some value)
  | many => .error (.multipleEntries many.length)

/-- The entries in braces. -/
def text (result : RuleResult) : String :=
  "\x7b" ++ commaSeparated (result.entries.map fun (name, value) => name ++ ": " ++ value.text) ++
    "\x7d"

end RuleResult

/-- The outputs of the rules that count. -/
structure Result where
  rules : List RuleResult
deriving DecidableEq

namespace Result

/-- The result of no rule at all. -/
def empty : Result := ⟨[]⟩

/-- The only rule result, if there is one. -/
def singleResult (result : Result) : Except ResultError (Option RuleResult) :=
  match result.rules with
  | [] => .ok none
  | [only] => .ok (some only)
  | many => .error (.multipleResults many.length)

/-- The only value, if there is one. -/
def singleEntry (result : Result) : Except ResultError (Option Value) := do
  match ← result.singleResult with
  | some only => only.singleEntry
  | none => return none

/-- The values under a name, from every rule that has one. -/
def column (result : Result) (name : String) : List Value :=
  result.rules.filterMap fun rule => rule.get? name

/-- The rule results in brackets. -/
def text (result : Result) : String :=
  "[" ++ commaSeparated (result.rules.map RuleResult.text) ++ "]"

end Result

/-- A result together with the rules it came from, by their places. -/
structure Report where
  result : Result
  /-- The rules that match, in the order of the table. -/
  matched : List Nat
  /-- The rules that count, in the order of the result. -/
  selected : List Nat
deriving DecidableEq

namespace Report

/-- Places in brackets. -/
def indices (places : List Nat) : String :=
  "[" ++ commaSeparated (places.map fun place => String.ofList (Nat.toDigits 10 place)) ++ "]"

/-- A line about the evaluation. -/
def text (report : Report) : String :=
  s!"result: {report.result.text}, matched: {indices report.matched}, " ++
    s!"selected: {indices report.selected}"

end Report

end Decision
