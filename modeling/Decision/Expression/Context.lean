import Std.Data.ExtTreeMap
import Decision.Value.Basic

/-!
# Variables and Contexts

What a name means while a table is evaluated.

There are two layers. The variables are what the caller supplied. On top of
them lie the bindings, one for each input clause of the table, which hold the
value of the clause after its conversion. A name is looked up in the bindings
first, so a cell can never see the unconverted variable behind an input clause.

A clause whose variable is missing is bound all the same, to null. Outside the
bindings a missing variable stays missing, and that difference is visible: a
cell that mentions it has no value.

Both layers are maps that are equal when they hold the same values under the
same names, so a context does not remember in which order it was filled.

## Main definitions

* `Variables`: Values by name.
* `Context`: Bindings over variables.
* `Context.get?`: What a name means.
* `Context.input`: The value of an input clause.
-/

namespace Decision

/-- Values by name. -/
abbrev Variables := Std.ExtTreeMap String Value

/-- What names mean to the cells of a table. -/
structure Context where
  /-- The converted values of the input clauses. -/
  bindings : Variables
  /-- What the caller supplied. -/
  «variables» : Variables

namespace Context

/-- A context in which nothing is bound yet. -/
def ofVariables (supplied : Variables) : Context := ⟨∅, supplied⟩

/-- The context with one more binding. -/
def bind (context : Context) (name : String) (value : Value) : Context :=
  { context with bindings := context.bindings.insert name value }

/-- What a name means: its binding, or else the variable. -/
def get? (context : Context) (name : String) : Option Value :=
  context.bindings[name]? <|> context.variables[name]?

/-- The value bound to an input clause. -/
def input (context : Context) (clause : String) : Value :=
  context.bindings[clause]?.getD .null

theorem get?_bind_self (context : Context) (name : String) (value : Value) :
    (context.bind name value).get? name = some value := by
  rw [get?, bind, Std.ExtTreeMap.getElem?_insert_self]
  rfl

theorem get?_bind_other {context : Context} {name other : String} {value : Value}
    (h : name ≠ other) : (context.bind name value).get? other = context.get? other := by
  have hcompare : compare name other ≠ .eq := fun heq => h (Std.LawfulEqCmp.eq_of_compare heq)
  rw [get?, bind, Std.ExtTreeMap.getElem?_insert, if_neg hcompare]
  rfl

end Context

end Decision
