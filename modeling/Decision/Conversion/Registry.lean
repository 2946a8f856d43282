import Std.Data.ExtTreeMap
import Decision.Conversion.Builtin
import Decision.Text.Quoted

/-!
# Type Names

Which converter a type name stands for.

A registry is a map from names to converters. The standard one knows the basic
types by their names; a caller can add names and give the known ones another
meaning, and the last meaning given is the one that counts. Names are compared
exactly.

## Main definitions

* `Registry`: Converters by type name.
* `Registry.standard`: The basic types.
* `Registry.register`: A name given a meaning.
* `Registry.names`: The known names, rising.
-/

namespace Decision

/-- Converters by type name. -/
structure Registry where
  converters : Std.ExtTreeMap String Converter

namespace Registry

/-- A registry that knows no name. -/
def empty : Registry := ⟨∅⟩

/-- Gives a name a meaning, in place of the one it had. -/
def register (registry : Registry) (name : String) (converter : Converter) : Registry :=
  ⟨registry.converters.insert name converter⟩

/-- Gives a basic type its name. -/
def registerBasic (registry : Registry) (type : BasicType) : Registry :=
  registry.register type.name type.convert

/-- The registry of the basic types. -/
def standard : Registry :=
  [BasicType.string, .boolean, .integer, .long, .double].foldl registerBasic empty

/-- The converter that a name stands for. -/
def converter? (registry : Registry) (name : String) : Option Converter :=
  registry.converters[name]?

/-- The known names, rising. -/
def names (registry : Registry) : List String := registry.converters.keys

/-- A line that lists the known names. -/
def description (registry : Registry) : String :=
  "DefaultTransformerFactory \x7b types: [" ++
    commaSeparated (registry.names.map Text.quoted) ++ "] \x7d"

end Registry

end Decision
