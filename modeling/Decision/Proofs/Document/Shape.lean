import Decision.Document.Table
import Mathlib.Data.List.Forall2

/-!
# The Shape of Documents

What it takes for a document to describe a table, apart from how it is read.

A reader goes through a document and gives up at the first thing it does not
expect. What it expects is spread over its branches. Here it is written down as
a relation between what is stored and the document that stores it. Several
documents can store one thing: the fields of an object come in any order and
among others, a whole number will do for a double, and a name can be an object
with nothing in it. One document stores one thing at most, because it is read by
a function, and `reads_storedIn` says of every reader that it succeeds on the
documents of the relation and on no others.

Fields are where it is delicate. A name that a reader knows has one field or none,
which is `HoldsOnce` and `Lacks`, and an object with a second one stores nothing.
And a missing field can mean that the document is no good, that there is nothing, or
that there is something in particular: these are `Requires`, `Permits` and `Defaults`.
Null in place of content is the same as a missing field under `Permits` only.

## Main definitions

* `Document.IsName`, `Document.IsText`, `Document.IsList`: Documents of a kind.
* `Document.Lacks`, `Document.HoldsOnce`: How many fields a name has.
* `Document.Requires`, `Document.Permits`, `Document.Defaults`: What a field holds.
* `Document.Reads`: A reader accepts the documents of a shape and no others.
* `Value.StoredIn` to `Draft.StoredIn`: What a document stores.

## Theorems

* `lookup?_eq_missing_iff`, `lookup?_eq_found_iff`: What is found under a name.
* `mapM_eq_some_iff`, `required?_eq_some_iff`, `withDefault?_eq_some_iff`,
  `optional?_eq_some_iff`: What the parts of a reader accept.
* `Value.reads_storedIn` to `Draft.reads_storedIn`: What the readers accept.
-/

namespace Decision

namespace Document

variable {α : Type}

/-! ## Kinds of documents -/

/-- A document is a name without content. -/
inductive IsName (name : String) : Document → Prop where
  | text : IsName name (.string name)
  | field : IsName name (.object [(name, .null)])

/-- A document is a text. -/
def IsText (text : String) (document : Document) : Prop := document = .string text

/-- A document is a list of items of one shape. -/
def IsList (shape : α → Document → Prop) (as : List α) (document : Document) : Prop :=
  ∃ items, document = .array items ∧ List.Forall₂ shape as items

/-! ## Fields -/

/-- No field has the name. -/
def Lacks (fields : List (String × Document)) (name : String) : Prop :=
  name ∉ fields.map Prod.fst

/-- One field has the name, and no field before or after it. -/
def HoldsOnce (fields : List (String × Document)) (name : String) (content : Document) : Prop :=
  ∃ before after, fields = before ++ (name, content) :: after ∧ Lacks before name ∧
    Lacks after name

/-- A field has to be there, and holds something of a shape. -/
def Requires (fields : List (String × Document)) (name : String) (shape : α → Document → Prop)
    (a : α) : Prop :=
  ∃ content, HoldsOnce fields name content ∧ shape a content

/-- A field holds something of a shape, and stands for something in particular if it
    is missing. -/
def Defaults (fields : List (String × Document)) (name : String) (default : α)
    (shape : α → Document → Prop) (a : α) : Prop :=
  (Lacks fields name ∧ a = default) ∨ Requires fields name shape a

/-- A field holds something of a shape, and there is nothing if it is missing or
    null. -/
def Permits (fields : List (String × Document)) (name : String) (shape : α → Document → Prop) :
    Option α → Prop
  | none => Lacks fields name ∨ HoldsOnce fields name null
  | some a => ∃ content, HoldsOnce fields name content ∧ content ≠ null ∧ shape a content

/-! ## Readers -/

/-- A reader accepts the documents of a shape and no others. -/
def Reads (content? : Document → Option α) (shape : α → Document → Prop) : Prop :=
  ∀ document a, content? document = some a ↔ shape a document

theorem unit?_eq_some_iff {document : Document} {name : String} :
    document.unit? = some name ↔ IsName name document := by
  constructor
  · intro h
    unfold unit? at h
    split at h
    · rw [← Option.some.inj h]
      exact .text
    · rw [← Option.some.inj h]
      exact .field
    · exact absurd h nofun
  · rintro (_ | _) <;> rfl

/-- What is stored by its name is read by its name. -/
theorem reads_name {named : α → String} {ofName? : String → Option α}
    (h : ∀ name a, ofName? name = some a ↔ name = named a) :
    Reads (fun document => document.unit? >>= ofName?) (fun a => IsName (named a)) := by
  intro document a
  show (document.unit? >>= ofName?) = some a ↔ IsName (named a) document
  rw [← unit?_eq_some_iff, Option.bind_eq_bind, Option.bind_eq_some_iff]
  constructor
  · rintro ⟨name, hname, ha⟩
    rw [hname, (h name a).mp ha]
  · exact fun hname => ⟨named a, hname, (h _ a).mpr rfl⟩

theorem reads_asString : Reads asString? IsText := by
  intro document text
  cases document with
  | string s => simp only [asString?, IsText, Option.some.injEq, string.injEq]
  | _ => simp only [asString?, IsText, reduceCtorEq]

variable {content? : Document → Option α} {shape : α → Document → Prop}

/-- Items are read one by one. -/
theorem mapM_eq_some_iff (h : Reads content? shape) {items : List Document} {as : List α} :
    items.mapM content? = some as ↔ List.Forall₂ shape as items := by
  induction items generalizing as with
  | nil =>
      rw [List.mapM_nil, List.forall₂_nil_right_iff]
      exact Option.some_inj.trans eq_comm
  | cons item items ih =>
      simp only [List.mapM_cons, Option.bind_eq_bind, Option.bind_eq_some_iff, Option.pure_def,
        Option.some.injEq]
      constructor
      · rintro ⟨a, ha, rest, hrest, rfl⟩
        exact .cons ((h item a).mp ha) (ih.mp hrest)
      · rintro (_ | ⟨hshape, hshapes⟩)
        exact ⟨_, (h item _).mpr hshape, _, ih.mpr hshapes, rfl⟩

theorem reads_asList (h : Reads content? shape) : Reads (asList? content?) (IsList shape) := by
  intro document as
  cases document with
  | array items =>
      simp only [asList?, IsList, mapM_eq_some_iff h, array.injEq, exists_eq_left']
  | _ => simp only [asList?, IsList, reduceCtorEq, false_and, exists_false]

section Fields

variable {fields : List (String × Document)} {name : String}

theorem field?_eq_none_iff : field? fields name = none ↔ Lacks fields name := by
  simp only [field?, Option.map_eq_none_iff, List.find?_eq_none, beq_iff_eq, Lacks, List.mem_map,
    not_exists, not_and]

/-- Nothing is found under a name without a field. -/
theorem lookup?_eq_missing_iff : lookup? fields name = some none ↔ Lacks fields name := by
  unfold lookup?
  by_cases hmany : 1 < (fields.map Prod.fst).count name
  · rw [if_pos hmany]
    refine ⟨nofun, fun hlacks => ?_⟩
    rw [List.count_eq_zero.mpr hlacks] at hmany
    exact absurd hmany (by decide)
  · rw [if_neg hmany, Option.some_inj, field?_eq_none_iff]

/-- Content is found under a name if it is in the one field that has the name. -/
theorem lookup?_eq_found_iff {content : Document} :
    lookup? fields name = some (some content) ↔ HoldsOnce fields name content := by
  have hcount : ∀ before after : List (String × Document),
      ((before ++ (name, content) :: after).map Prod.fst).count name =
        (before.map Prod.fst).count name + ((after.map Prod.fst).count name + 1) := by
    intro before after
    rw [List.map_append, List.map_cons, List.count_append, List.count_cons_self]
  unfold lookup?
  constructor
  · intro h
    split at h
    · exact absurd h nofun
    · next hmany =>
        rcases Option.map_eq_some_iff.mp (Option.some.inj h) with ⟨field, hfind, rfl⟩
        rcases List.find?_eq_some_iff_append.mp hfind with ⟨hname, before, after, rfl, hbefore⟩
        obtain rfl := beq_iff_eq.mp hname
        -- A field of the name behind the first one would be the second of two.
        rw [hcount] at hmany
        have hafter : (after.map Prod.fst).count field.1 = 0 := by omega
        refine ⟨before, after, rfl, ?_, List.count_eq_zero.mp hafter⟩
        rw [← field?_eq_none_iff, field?, Option.map_eq_none_iff, List.find?_eq_none]
        intro other hother
        exact (Bool.not_eq_true' _).mp (hbefore other hother) ▸ Bool.false_ne_true
  · rintro ⟨before, after, rfl, hbefore, hafter⟩
    rw [hcount, List.count_eq_zero.mpr hbefore, List.count_eq_zero.mpr hafter,
      if_neg (by decide)]
    rw [← field?_eq_none_iff, field?, Option.map_eq_none_iff] at hbefore
    simp only [field?, List.find?_append, hbefore, Option.none_or, List.find?_cons,
      beq_self_eq_true, Option.map_some]

theorem required?_eq_some_iff (h : Reads content? shape) {a : α} :
    required? fields name content? = some a ↔ Requires fields name shape a := by
  simp only [Requires, ← lookup?_eq_found_iff, required?]
  rcases lookup? fields name with _ | _ | content
  · simp only [reduceCtorEq, false_and, exists_false]
  · simp only [reduceCtorEq, Option.some.injEq, false_and, exists_false]
  · simp only [Option.some.injEq, exists_eq_left', h content a]

theorem withDefault?_eq_some_iff (h : Reads content? shape) {default a : α} :
    withDefault? fields name default content? = some a ↔
      Defaults fields name default shape a := by
  simp only [Defaults, Requires, ← lookup?_eq_missing_iff, ← lookup?_eq_found_iff, withDefault?]
  rcases lookup? fields name with _ | _ | content
  · simp only [reduceCtorEq, false_and, exists_false, or_false]
  · simp only [Option.some.injEq, reduceCtorEq, false_and, exists_false, or_false, true_and,
      eq_comm]
  · simp only [Option.some.injEq, reduceCtorEq, false_and, false_or, exists_eq_left', h content a]

theorem optional?_eq_some_iff (h : Reads content? shape) {a : Option α} :
    optional? fields name content? = some a ↔ Permits fields name shape a := by
  have hread : ∀ content, (content? content).map some = some a ↔
      ∃ b, a = some b ∧ shape b content := by
    intro content
    simp only [Option.map_eq_some_iff, h content, and_comm, eq_comm]
  -- Null counts as nothing, so only what is found apart from it is read.
  cases a with
  | none =>
      simp only [Permits, ← lookup?_eq_missing_iff, ← lookup?_eq_found_iff]
      unfold optional?
      split
      · next hmissing => simp only [hmissing, true_or]
      · next hnull => simp only [hnull, or_true]
      · next content hne hfound =>
          simp only [hfound, hread content, Option.some.injEq, reduceCtorEq, false_and,
            exists_false, false_or, false_iff]
          exact hne
      · next hrepeated => simp only [hrepeated, reduceCtorEq, or_false]
  | some a =>
      simp only [Permits, ← lookup?_eq_found_iff]
      unfold optional?
      split
      · next hmissing =>
          simp only [hmissing, Option.some.injEq, reduceCtorEq, false_and, exists_false]
      · next hnull =>
          simp only [hnull, Option.some.injEq, reduceCtorEq, exists_eq_left', ne_eq, not_true,
            false_and]
      · next content hne hfound =>
          simp only [hfound, hread content, Option.some.injEq, exists_eq_left']
          exact ⟨fun hshape => ⟨hne, hshape⟩, And.right⟩
      · next hrepeated => simp only [hrepeated, reduceCtorEq, false_and, exists_false]

end Fields

end Document

open Document

/-! ## Values -/

namespace Value

mutual

/-- A document stores a value: its kind, and under it the content. -/
inductive StoredIn : Value → Document → Prop where
  | null {document : Document} (h : IsName "Null" document) : StoredIn .null document
  | bool (b : Bool) : StoredIn (.bool b) (.object [("Bool", .bool b)])
  | int (n : Int64) : StoredIn (.int n) (.object [("Int", .int n.toInt)])
  | float (x : Binary64) : StoredIn (.float x) (.object [("Float", .float x)])
  /-- A double may be written as an integer, which is then rounded. -/
  | wholeFloat (n : Int) : StoredIn (.float (.ofInt n)) (.object [("Float", .int n)])
  | string (s : String) : StoredIn (.string s) (.object [("String", .string s)])
  | list {items : List Value} {contents : List Document} (h : ItemsStoredIn items contents) :
      StoredIn (.list items) (.object [("List", .array contents)])
  | map {entries : List (String × Value)} {fields : List (String × Document)}
      (h : EntriesStoredIn entries fields) :
      StoredIn (ofEntries entries) (.object [("Map", .object fields)])

/-- Documents store the items of a list, each one of them. -/
inductive ItemsStoredIn : List Value → List Document → Prop where
  | nil : ItemsStoredIn [] []
  | cons {item : Value} {items : List Value} {content : Document} {contents : List Document}
      (h : StoredIn item content) (hs : ItemsStoredIn items contents) :
      ItemsStoredIn (item :: items) (content :: contents)

/-- Fields store the entries of a map, each one of them under its name. -/
inductive EntriesStoredIn : List (String × Value) → List (String × Document) → Prop where
  | nil : EntriesStoredIn [] []
  | cons {name : String} {item : Value} {entries : List (String × Value)} {content : Document}
      {fields : List (String × Document)} (h : StoredIn item content)
      (hs : EntriesStoredIn entries fields) :
      EntriesStoredIn ((name, item) :: entries) ((name, content) :: fields)

end

mutual

theorem storedIn_of_ofDocument? (document : Document) {value : Value}
    (h : ofDocument? document = some value) : StoredIn value document := by
  unfold ofDocument? at h
  split at h
  · rw [← Option.some.inj h]
    exact .null .text
  · rw [← Option.some.inj h]
    exact .null .field
  · rw [← Option.some.inj h]
    exact .bool _
  · rcases Option.map_eq_some_iff.mp h with ⟨n, hn, rfl⟩
    rw [← Numeral.long?_eq_some_iff.mp hn]
    exact .int n
  · rw [← Option.some.inj h]
    exact .wholeFloat _
  · rw [← Option.some.inj h]
    exact .float _
  · rw [← Option.some.inj h]
    exact .string _
  · rcases Option.map_eq_some_iff.mp h with ⟨items, hitems, rfl⟩
    exact .list (itemsStoredIn_of_ofDocuments? _ hitems)
  · rcases Option.map_eq_some_iff.mp h with ⟨entries, hentries, rfl⟩
    exact .map (entriesStoredIn_of_ofFields? _ hentries)
  · exact absurd h nofun

theorem itemsStoredIn_of_ofDocuments? (contents : List Document) {items : List Value}
    (h : ofDocuments? contents = some items) : ItemsStoredIn items contents := by
  cases contents with
  | nil =>
      rw [← Option.some.inj h]
      exact .nil
  | cons content contents =>
      simp only [ofDocuments?, Option.bind_eq_bind, Option.bind_eq_some_iff, Option.pure_def,
        Option.some.injEq] at h
      rcases h with ⟨item, hitem, rest, hrest, rfl⟩
      exact .cons (storedIn_of_ofDocument? content hitem)
        (itemsStoredIn_of_ofDocuments? contents hrest)

theorem entriesStoredIn_of_ofFields? (fields : List (String × Document))
    {entries : List (String × Value)} (h : ofFields? fields = some entries) :
    EntriesStoredIn entries fields := by
  match fields, h with
  | [], h =>
      rw [← Option.some.inj h]
      exact .nil
  | (name, content) :: fields, h =>
      simp only [ofFields?, Option.bind_eq_bind, Option.bind_eq_some_iff, Option.pure_def,
        Option.some.injEq] at h
      rcases h with ⟨item, hitem, rest, hrest, rfl⟩
      exact .cons (storedIn_of_ofDocument? content hitem)
        (entriesStoredIn_of_ofFields? fields hrest)

end

mutual

theorem ofDocument?_of_storedIn {value : Value} {document : Document}
    (h : StoredIn value document) : ofDocument? document = some value := by
  cases h with
  | null h => cases h <;> rfl
  | bool b => rfl
  | int n =>
      rw [ofDocument?, Numeral.long?_eq_some_iff.mpr rfl]
      rfl
  | float x => rfl
  | wholeFloat n => rfl
  | string s => rfl
  | list h => rw [ofDocument?, ofDocuments?_of_itemsStoredIn h, Option.map_some]
  | map h => rw [ofDocument?, ofFields?_of_entriesStoredIn h, Option.map_some]

theorem ofDocuments?_of_itemsStoredIn {items : List Value} {contents : List Document}
    (h : ItemsStoredIn items contents) : ofDocuments? contents = some items := by
  cases h with
  | nil => rfl
  | cons h hs =>
      rw [ofDocuments?, ofDocument?_of_storedIn h, ofDocuments?_of_itemsStoredIn hs]
      rfl

theorem ofFields?_of_entriesStoredIn {entries : List (String × Value)}
    {fields : List (String × Document)} (h : EntriesStoredIn entries fields) :
    ofFields? fields = some entries := by
  cases h with
  | nil => rfl
  | cons h hs =>
      rw [ofFields?, ofDocument?_of_storedIn h, ofFields?_of_entriesStoredIn hs]
      rfl

end

/-- Values are read from the documents that store them. -/
theorem reads_storedIn : Reads ofDocument? StoredIn :=
  fun document _ => ⟨storedIn_of_ofDocument? document, ofDocument?_of_storedIn⟩

end Value

/-! ## The parts of a table -/

/-- A document stores a cell. -/
inductive Expression.StoredIn (cell : Expression) : Document → Prop where
  | object {fields : List (String × Document)}
      (text : Requires fields "text" IsText cell.text)
      (language : Permits fields "language" IsText cell.language) :
      StoredIn cell (.object fields)

/-- A document stores an input cell: the name of an open one, or a condition. -/
inductive InputEntry.StoredIn : InputEntry → Document → Prop where
  | any {document : Document} (h : IsName "Any" document) : StoredIn .any document
  | test {condition : Expression} {content : Document} (h : condition.StoredIn content) :
      StoredIn (.test condition) (.object [("Test", content)])

/-- A document stores a clause. Its list of values has to be there, if only empty. -/
inductive Clause.StoredIn {role : Role} (clause : Clause role) : Document → Prop where
  | object {fields : List (String × Document)}
      (name : Requires fields "name" IsText clause.name)
      (typeName : Permits fields "type_ref" IsText clause.typeName)
      (values : Requires fields "values" (IsList Value.StoredIn) clause.values) :
      StoredIn clause (.object fields)

/-- A document stores a rule. -/
inductive Rule.StoredIn (rule : Rule) : Document → Prop where
  | object {fields : List (String × Document)}
      (id : Permits fields "id" IsText rule.id)
      (inputs : Requires fields "inputs" (IsList InputEntry.StoredIn) rule.inputs)
      (outputs : Requires fields "outputs" (IsList Expression.StoredIn) rule.outputs) :
      StoredIn rule (.object fields)

/-- A document stores a policy, by its name. -/
def HitPolicy.StoredIn (policy : HitPolicy) (document : Document) : Prop :=
  IsName policy.storedName document

/-- A document stores a folding, by its name. -/
def Aggregator.StoredIn (aggregator : Aggregator) (document : Document) : Prop :=
  IsName aggregator.storedName document

/-- A document stores the parts of a table. Without input clauses and rules there are
    none, and without a policy it is UNIQUE. -/
inductive Draft.StoredIn (draft : Draft) : Document → Prop where
  | object {fields : List (String × Document)}
      (id : Requires fields "id" IsText draft.id)
      (name : Permits fields "name" IsText draft.name)
      (inputs : Defaults fields "inputs" [] (IsList Clause.StoredIn) draft.inputs)
      (outputs : Requires fields "outputs" (IsList Clause.StoredIn) draft.outputs)
      (rules : Defaults fields "rules" [] (IsList Rule.StoredIn) draft.rules)
      (policy : Defaults fields "hit_policy" .unique HitPolicy.StoredIn draft.policy)
      (aggregator : Permits fields "aggregator" Aggregator.StoredIn draft.aggregator) :
      StoredIn draft (.object fields)

theorem Expression.reads_storedIn : Reads ofDocument? StoredIn := by
  intro document cell
  constructor
  · intro h
    cases document with
    | object fields =>
        simp only [ofDocument?, Option.bind_eq_bind, Option.bind_eq_some_iff, Option.pure_def,
          Option.some.injEq, required?_eq_some_iff reads_asString,
          optional?_eq_some_iff reads_asString] at h
        rcases h with ⟨text, htext, language, hlanguage, rfl⟩
        exact .object htext hlanguage
    | _ => exact absurd h nofun
  · rintro ⟨htext, hlanguage⟩
    rw [ofDocument?, (required?_eq_some_iff reads_asString).mpr htext,
      (optional?_eq_some_iff reads_asString).mpr hlanguage]
    rfl

theorem InputEntry.reads_storedIn : Reads ofDocument? StoredIn := by
  intro document entry
  constructor
  · intro h
    unfold ofDocument? at h
    split at h
    · rcases Option.map_eq_some_iff.mp h with ⟨condition, hcondition, rfl⟩
      exact .test ((Expression.reads_storedIn _ _).mp hcondition)
    · split at h
      · next hany =>
          rw [← Option.some.inj h]
          exact .any (unit?_eq_some_iff.mp hany)
      · exact absurd h nofun
  · rintro (h | h)
    · cases h <;> rfl
    · rw [ofDocument?, (Expression.reads_storedIn _ _).mpr h, Option.map_some]

theorem Clause.reads_storedIn (role : Role) :
    Reads ofDocument? (StoredIn : Clause role → Document → Prop) := by
  intro document clause
  have hvalues := reads_asList Value.reads_storedIn
  constructor
  · intro h
    cases document with
    | object fields =>
        simp only [ofDocument?, Option.bind_eq_bind, Option.bind_eq_some_iff, Option.pure_def,
          Option.some.injEq, required?_eq_some_iff reads_asString,
          optional?_eq_some_iff reads_asString, required?_eq_some_iff hvalues] at h
        rcases h with ⟨name, hname, typeName, htype, values, hlist, rfl⟩
        exact .object hname htype hlist
    | _ => exact absurd h nofun
  · rintro ⟨hname, htype, hlist⟩
    rw [ofDocument?, (required?_eq_some_iff reads_asString).mpr hname,
      (optional?_eq_some_iff reads_asString).mpr htype,
      (required?_eq_some_iff hvalues).mpr hlist]
    rfl

theorem Rule.reads_storedIn : Reads ofDocument? StoredIn := by
  intro document rule
  have hinputs := reads_asList InputEntry.reads_storedIn
  have houtputs := reads_asList Expression.reads_storedIn
  constructor
  · intro h
    cases document with
    | object fields =>
        simp only [ofDocument?, Option.bind_eq_bind, Option.bind_eq_some_iff, Option.pure_def,
          Option.some.injEq, optional?_eq_some_iff reads_asString, required?_eq_some_iff hinputs,
          required?_eq_some_iff houtputs] at h
        rcases h with ⟨id, hid, inputs, hin, outputs, hout, rfl⟩
        exact .object hid hin hout
    | _ => exact absurd h nofun
  · rintro ⟨hid, hin, hout⟩
    rw [ofDocument?, (optional?_eq_some_iff reads_asString).mpr hid,
      (required?_eq_some_iff hinputs).mpr hin, (required?_eq_some_iff houtputs).mpr hout]
    rfl

theorem HitPolicy.reads_storedIn : Reads ofDocument? StoredIn := by
  refine reads_name fun name policy => ⟨fun h => ?_, ?_⟩
  · split at h
    case h_8 => cases h
    all_goals
      rw [← Option.some.inj h]
      rfl
  · rintro rfl
    cases policy <;> rfl

theorem Aggregator.reads_storedIn : Reads ofDocument? StoredIn := by
  refine reads_name fun name aggregator => ⟨fun h => ?_, ?_⟩
  · split at h
    case h_5 => cases h
    all_goals
      rw [← Option.some.inj h]
      rfl
  · rintro rfl
    cases aggregator <;> rfl

theorem Draft.reads_storedIn : Reads ofDocument? StoredIn := by
  intro document draft
  have hinputs := reads_asList (Clause.reads_storedIn .input)
  have houtputs := reads_asList (Clause.reads_storedIn .output)
  have hrules := reads_asList Rule.reads_storedIn
  constructor
  · intro h
    cases document with
    | object fields =>
        simp only [ofDocument?, Option.bind_eq_bind, Option.bind_eq_some_iff, Option.pure_def,
          Option.some.injEq, required?_eq_some_iff reads_asString,
          optional?_eq_some_iff reads_asString, withDefault?_eq_some_iff hinputs,
          required?_eq_some_iff houtputs, withDefault?_eq_some_iff hrules,
          withDefault?_eq_some_iff HitPolicy.reads_storedIn,
          optional?_eq_some_iff Aggregator.reads_storedIn] at h
        rcases h with ⟨id, hid, name, hname, inputs, hin, outputs, hout, rules, hrows, policy,
          hpolicy, aggregator, haggregator, rfl⟩
        exact .object hid hname hin hout hrows hpolicy haggregator
    | _ => exact absurd h nofun
  · rintro ⟨hid, hname, hin, hout, hrows, hpolicy, haggregator⟩
    rw [ofDocument?, (required?_eq_some_iff reads_asString).mpr hid,
      (optional?_eq_some_iff reads_asString).mpr hname,
      (withDefault?_eq_some_iff hinputs).mpr hin, (required?_eq_some_iff houtputs).mpr hout,
      (withDefault?_eq_some_iff hrules).mpr hrows,
      (withDefault?_eq_some_iff HitPolicy.reads_storedIn).mpr hpolicy,
      (optional?_eq_some_iff Aggregator.reads_storedIn).mpr haggregator]
    rfl

/-- A name that tables do not know may have two fields, but the id of a table may not
    be there twice, even if both agree. -/
example :
    Draft.ofDocument? (.object [("id", .string "fees"), ("note", .null), ("outputs", .array []),
      ("note", .null)]) = some { id := "fees", outputs := [] } ∧
    Draft.ofDocument? (.object [("id", .string "fees"), ("outputs", .array []),
      ("id", .string "fees")]) = none := ⟨rfl, rfl⟩

end Decision
