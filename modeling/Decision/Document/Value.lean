import Decision.Document.Basic
import Decision.Numeral.Integer
import Decision.Value.Basic

/-!
# Values as Documents

A value is stored with its kind: an object whose only field is named for the
kind and holds the content. Null has no content and is just its name.

Reading is strict about kinds. An integer has to be an integer of 64 bits, and
a double may be written as an integer but has to be a number. An object with a
second field is not a value. The entries of a map may come in any order.

## Main definitions

* `Value.toDocument`: A value as it is stored.
* `Value.ofDocument?`: The value that is stored in a document.

## Theorems

* `ofDocument?_toDocument`: A stored value is read back as it was.
-/

namespace Decision

namespace Value

/-- A kind with its content. -/
def tagged (kind : String) (content : Document) : Document := .object [(kind, content)]

mutual

/-- A value as it is stored. -/
def toDocument : Value → Document
  | null => .string "Null"
  | bool b => tagged "Bool" (.bool b)
  | int n => tagged "Int" (.int n.toInt)
  | float x => tagged "Float" (.float x)
  | string s => tagged "String" (.string s)
  | list items => tagged "List" (.array (toDocuments items))
  | map keys item =>
      tagged "Map" (.object (List.ofFn fun i => (keys.name i, toDocument (item i))))

/-- The items of a list as they are stored. -/
def toDocuments : List Value → List Document
  | [] => []
  | item :: rest => toDocument item :: toDocuments rest

end

mutual

/-- The value that is stored in a document. -/
def ofDocument? : Document → Option Value
  | .string "Null" => some null
  | .object [("Null", .null)] => some null
  | .object [("Bool", .bool b)] => some (bool b)
  | .object [("Int", .int n)] => (Numeral.long? n).map int
  | .object [("Float", .int n)] => some (float (.ofInt n))
  | .object [("Float", .float x)] => some (float x)
  | .object [("String", .string s)] => some (string s)
  | .object [("List", .array items)] => (ofDocuments? items).map list
  | .object [("Map", .object fields)] => (ofFields? fields).map ofEntries
  | _ => none

/-- The values that are stored in some documents, if all of them hold one. -/
def ofDocuments? : List Document → Option (List Value)
  | [] => some []
  | item :: rest => do
      let value ← ofDocument? item
      let values ← ofDocuments? rest
      return value :: values

/-- The values that are stored under some names, if all of them hold one. -/
def ofFields? : List (String × Document) → Option (List (String × Value))
  | [] => some []
  | (name, content) :: rest => do
      let value ← ofDocument? content
      let entries ← ofFields? rest
      return (name, value) :: entries

end

/-! ## Reading what was stored -/

theorem ofFields?_ofFn {n : Nat} (entry : Fin n → String × Value)
    (h : ∀ i, ofDocument? (toDocument (entry i).2) = some (entry i).2) :
    ofFields? (List.ofFn fun i => ((entry i).1, toDocument (entry i).2)) =
      some (List.ofFn entry) := by
  induction n with
  | zero => rfl
  | succ n ih =>
      rw [List.ofFn_succ, List.ofFn_succ, ofFields?, h 0,
        ih (fun i => entry i.succ) fun i => h i.succ]
      rfl

mutual

/-- A stored value is read back as it was. -/
theorem ofDocument?_toDocument (value : Value) : ofDocument? (toDocument value) = some value := by
  cases value with
  | null => rfl
  | bool b => rfl
  | int n =>
      simp only [toDocument, tagged, ofDocument?]
      rw [Numeral.long?_eq_some_iff.mpr rfl]
      rfl
  | float x => rfl
  | string s => rfl
  | list items =>
      simp only [toDocument, tagged, ofDocument?, ofDocuments?_toDocuments items, Option.map_some]
  | map keys item =>
      -- The fields come back as the entries, and those make up the same map.
      have h := ofFields?_ofFn (fun i => (keys.name i, item i)) fun i =>
        ofDocument?_toDocument (item i)
      simp only [toDocument, tagged, ofDocument?, h, Option.map_some]
      exact congrArg some (ofEntries_entriesOf keys item)

theorem ofDocuments?_toDocuments (items : List Value) :
    ofDocuments? (toDocuments items) = some items := by
  cases items with
  | nil => rfl
  | cons item rest =>
      simp only [toDocuments, ofDocuments?, ofDocument?_toDocument item,
        ofDocuments?_toDocuments rest]
      rfl

end

end Value

end Decision
