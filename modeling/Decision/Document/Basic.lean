import Decision.Binary64.Rounding

/-!
# Documents

The tree that a table or a value becomes when it is stored.

A document knows six kinds of thing and nothing about tables. Integers and
doubles are told apart, since a stored integer has to come back as one. How a
document is laid out as text is not decided here; one property of the common
text form matters all the same, and that is that it has no spelling for
infinities and NaN.

Objects keep their fields in a list, so a name can have two of them. A reader
ignores fields it does not know, however often they are there, and treats a missing
field in its own way. A field that it knows it has to find once: with a second one
the object would say two things, and taking either of them would be a guess.

## Main definitions

* `Document`: The tree.
* `Document.lookup?`: A field of an object by name, unless the name has two.
* `Document.required?`, `Document.withDefault?`, `Document.optional?`: What a field
  holds, by what it means that it is missing.
* `Document.finite`: The document with null in place of what has no spelling.
-/

namespace Decision

/-- What a table or a value is stored as. -/
inductive Document where
  | null
  | bool (b : Bool)
  | int (n : Int)
  | float (x : Binary64)
  | string (s : String)
  | array (items : List Document)
  | object (fields : List (String × Document))

namespace Document

instance : Inhabited Document := ⟨.null⟩

/-- The first field of a name. -/
def field? (fields : List (String × Document)) (name : String) : Option Document :=
  (fields.find? fun field => field.1 == name).map Prod.snd

/-- What is found under a name: one field or none. There is no answer if the name has
    more than one. -/
def lookup? (fields : List (String × Document)) (name : String) : Option (Option Document) :=
  if 1 < (fields.map Prod.fst).count name then none else some (field? fields name)

/-- The text in a document. -/
def asString? : Document → Option String
  | string s => some s
  | _ => none

/-- The items in a document, each as a reader understands it. -/
def asList? {α : Type} (item? : Document → Option α) : Document → Option (List α)
  | array items => items.mapM item?
  | _ => none

/-- What a field holds, where the field has to be there. -/
def required? {α : Type} (fields : List (String × Document)) (name : String)
    (content? : Document → Option α) : Option α :=
  match lookup? fields name with
  | some (some content) => content? content
  | _ => none

/-- What a field holds, where a missing field has a meaning of its own. -/
def withDefault? {α : Type} (fields : List (String × Document)) (name : String) (default : α)
    (content? : Document → Option α) : Option α :=
  match lookup? fields name with
  | some none => some default
  | some (some content) => content? content
  | none => none

/-- What a field holds, where a missing field and null both mean nothing. -/
def optional? {α : Type} (fields : List (String × Document)) (name : String)
    (content? : Document → Option α) : Option (Option α) :=
  match lookup? fields name with
  | some none => some none
  | some (some null) => some none
  | some (some content) => (content? content).map some
  | none => none

/-- A name without content, which can also be written as an object whose only
    field is empty. -/
def unit? : Document → Option String
  | string name => some name
  | object [(name, null)] => some name
  | _ => none

/-- Null for nothing. -/
def ofOption {α : Type} (content : α → Document) : Option α → Document
  | none => null
  | some a => content a

/-! ## Numbers without a spelling -/

mutual

/-- The document with null in place of infinities and NaN. -/
def finite : Document → Document
  | float x => if x.isFinite then float x else null
  | array items => array (finiteItems items)
  | object fields => object (finiteFields fields)
  | document => document

/-- The items of an array, each without infinities and NaN. -/
def finiteItems : List Document → List Document
  | [] => []
  | item :: rest => finite item :: finiteItems rest

/-- The fields of an object, each without infinities and NaN. -/
def finiteFields : List (String × Document) → List (String × Document)
  | [] => []
  | (name, content) :: rest => (name, finite content) :: finiteFields rest

end

end Document

end Decision
