import Decision.Proofs.Document.Shape
import Decision.Proofs.Outcome
import Decision.Proofs.Table.Faults

/-!
# Stored Tables

What becomes of a table that is stored, and of a document that is taken for one.

Storing and reading are written apart, and reading goes through a draft, of which
a table is a special case. Two things could go wrong. A field could be stored
under one name and sought under another, so that a table would not survive; and
a document could find a way past the check that every draft has to pass. Neither
happens. What is stored is in the relation `StoredIn`, whose documents are
exactly those that are read, and what is read is built like any other draft.

So there are three kinds of documents: those that store no draft at all, those
that store one with a fault, and those that store the parts of a table. The fault
is the one that building the same parts by hand would report.

Three fields of a table may be missing although they hold something, and so may
the two that may hold nothing. `Draft.defaults` lists what they stand for.

## Main definitions

* `Draft.defaults`: What the fields stand for that may be missing.

## Theorems

* `Draft.ofDocument?_toDocument`: The parts of a table are read back as they were.
* `ofDocument?_default`: A missing field can be written out.
* `ofDocument_outcome`: What a document is taken for.
-/

namespace Decision

open Document

/-! ## Storing -/

/-- Every item is stored in the list of what they are stored in. -/
theorem Document.isList_map {α : Type} {shape : α → Document → Prop} {content : α → Document}
    (h : ∀ a, shape a (content a)) (as : List α) : IsList shape as (.array (as.map content)) := by
  refine ⟨_, rfl, ?_⟩
  rw [List.forall₂_map_right_iff, List.forall₂_same]
  exact fun a _ => h a

section Fields

variable {α : Type} {fields : List (String × Document)} {name : String}

theorem Document.requires_of_lookup? {shape : α → Document → Prop} {content : Document} {a : α}
    (hfound : lookup? fields name = some (some content)) (h : shape a content) :
    Requires fields name shape a := ⟨content, lookup?_eq_found_iff.mp hfound, h⟩

/-- A field that is null for nothing holds what it should, if nothing else is stored
    as null. -/
theorem Document.permits_of_lookup? {shape : α → Document → Prop} {content : α → Document}
    {a : Option α} (hfound : lookup? fields name = some (some (ofOption content a)))
    (h : ∀ a, shape a (content a)) (hne : ∀ a, content a ≠ .null) :
    Permits fields name shape a := by
  have honce := lookup?_eq_found_iff.mp hfound
  cases a with
  | none => exact Or.inr honce
  | some a => exact ⟨content a, honce, hne a, h a⟩

end Fields

theorem Value.storedIn_toDocument (value : Value) : value.StoredIn value.toDocument :=
  storedIn_of_ofDocument? _ (ofDocument?_toDocument value)

theorem Expression.storedIn_toDocument (cell : Expression) : cell.StoredIn cell.toDocument :=
  .object (requires_of_lookup? rfl rfl) (permits_of_lookup? rfl (fun _ => rfl) nofun)

theorem InputEntry.storedIn_toDocument (entry : InputEntry) : entry.StoredIn entry.toDocument := by
  cases entry with
  | any => exact .any .text
  | test condition => exact .test condition.storedIn_toDocument

theorem Clause.storedIn_toDocument {role : Role} (clause : Clause role) :
    clause.StoredIn clause.toDocument :=
  .object (requires_of_lookup? rfl rfl) (permits_of_lookup? rfl (fun _ => rfl) nofun)
    (requires_of_lookup? rfl (isList_map Value.storedIn_toDocument _))

theorem Rule.storedIn_toDocument (rule : Rule) : rule.StoredIn rule.toDocument :=
  .object (permits_of_lookup? rfl (fun _ => rfl) nofun)
    (requires_of_lookup? rfl (isList_map InputEntry.storedIn_toDocument _))
    (requires_of_lookup? rfl (isList_map Expression.storedIn_toDocument _))

/-- The document of a draft stores it, every part under its name. -/
theorem Draft.storedIn_toDocument (draft : Draft) : draft.StoredIn draft.toDocument :=
  .object (requires_of_lookup? rfl rfl) (permits_of_lookup? rfl (fun _ => rfl) nofun)
    (Or.inr (requires_of_lookup? rfl (isList_map Clause.storedIn_toDocument _)))
    (requires_of_lookup? rfl (isList_map Clause.storedIn_toDocument _))
    (Or.inr (requires_of_lookup? rfl (isList_map Rule.storedIn_toDocument _)))
    (Or.inr (requires_of_lookup? rfl .text))
    (permits_of_lookup? rfl (fun _ => .text) nofun)

/-- The parts of a table are read back as they were. -/
theorem Draft.ofDocument?_toDocument (draft : Draft) :
    Draft.ofDocument? draft.toDocument = some draft :=
  (reads_storedIn _ _).mpr draft.storedIn_toDocument

/-! ## Missing fields -/

/-- The fields that may be missing in a stored table, with what they stand for. -/
def Draft.defaults : List (String × Document) :=
  [("inputs", .array []), ("rules", .array []), ("hit_policy", .string "Unique"),
    ("name", .null), ("aggregator", .null)]

theorem Document.lookup?_cons_self {fields : List (String × Document)} {name : String}
    (content : Document) (h : Lacks fields name) :
    lookup? ((name, content) :: fields) name = some (some content) :=
  lookup?_eq_found_iff.mpr ⟨[], fields, rfl, List.not_mem_nil, h⟩

theorem Document.lookup?_cons_other {fields : List (String × Document)} {name other : String}
    {content : Document} (h : name ≠ other) :
    lookup? ((name, content) :: fields) other = lookup? fields other := by
  have hfind : field? ((name, content) :: fields) other = field? fields other := by
    rw [field?, field?, List.find?_cons_of_neg (beq_eq_false_iff_ne.mpr h ▸ Bool.false_ne_true)]
  rw [lookup?, lookup?, List.map_cons, List.count_cons_of_ne h, hfind]

/-- A missing field can be written out, and the document is read as before. -/
theorem Draft.ofDocument?_default {fields : List (String × Document)}
    {default : String × Document} (hdefault : default ∈ Draft.defaults)
    (hmissing : Lacks fields default.1) :
    Draft.ofDocument? (.object (default :: fields)) = Draft.ofDocument? (.object fields) := by
  have hlist : ∀ {α : Type} (item? : Document → Option α), asList? item? (.array []) = some [] :=
    fun _ => rfl
  have hpolicy : HitPolicy.ofDocument? (.string "Unique") = some .unique := rfl
  have hbefore := lookup?_eq_missing_iff.mpr hmissing
  have hafter := lookup?_cons_self default.2 hmissing
  simp only [Draft.defaults, List.mem_cons, List.not_mem_nil, or_false] at hdefault
  -- Only the one field is read differently, and it yields what its absence does.
  rcases hdefault with rfl | rfl | rfl | rfl | rfl <;>
    simp (disch := decide) only [Draft.ofDocument?, required?, withDefault?, optional?,
      hafter, lookup?_cons_other, hbefore, hlist, hpolicy]

/-! ## Reading -/

namespace Table

theorem ofDocument_of_storedIn {draft : Draft} {document : Document}
    (h : draft.StoredIn document) : ofDocument document = draft.build.mapError .table := by
  rw [ofDocument, (Draft.reads_storedIn _ _).mpr h]

theorem ofDocument_of_not_storedIn {document : Document}
    (h : ∀ draft : Draft, ¬ draft.StoredIn document) : ofDocument document = .error .shape := by
  have hnone : Draft.ofDocument? document = none := by
    refine Option.eq_none_iff_forall_not_mem.mpr fun draft hdraft => h draft ?_
    exact (Draft.reads_storedIn _ _).mp hdraft
  rw [ofDocument, hnone]

/-- A document without the shape of a draft is refused for that, and any other is
    taken for the draft that it stores. -/
theorem ofDocument_cases (document : Document) :
    (ofDocument document = .error .shape ∧ ∀ draft : Draft, ¬ draft.StoredIn document) ∨
      ∃ draft : Draft, draft.StoredIn document ∧
        ofDocument document = draft.build.mapError .table := by
  by_cases h : ∃ draft : Draft, draft.StoredIn document
  · rcases h with ⟨draft, hdraft⟩
    exact Or.inr ⟨draft, hdraft, ofDocument_of_storedIn hdraft⟩
  · have hnot : ∀ draft : Draft, ¬ draft.StoredIn document :=
      fun draft hdraft => h ⟨draft, hdraft⟩
    exact Or.inl ⟨ofDocument_of_not_storedIn hnot, hnot⟩

/-- A stored table is read back as it was. A document becomes a table exactly if it
    stores parts that fit, and it is refused either for the first fault of the parts it
    stores or because it stores none. A missing field that may be missing is read as
    what it stands for. -/
theorem ofDocument_outcome :
    (∀ table : Table, ofDocument table.toDocument = .ok table) ∧
      (∀ document table, ofDocument document = .ok table ↔
        ∃ draft : Draft, draft.StoredIn document ∧ draft.Valid ∧ draft.build = .ok table) ∧
      (∀ document fault, ofDocument document = .error (.table fault) ↔
        ∃ draft : Draft, draft.StoredIn document ∧ draft.build = .error fault) ∧
      (∀ document, ofDocument document = .error .shape ↔
        ∀ draft : Draft, ¬ draft.StoredIn document) ∧
      ∀ fields, ∀ default ∈ Draft.defaults, Lacks fields default.1 →
        ofDocument (.object (default :: fields)) = ofDocument (.object fields) := by
  refine ⟨?_, ?_, ?_, ?_, ?_⟩
  · intro table
    rw [ofDocument_of_storedIn table.storedIn_toDocument, mapError_eq_ok_iff]
    exact Draft.build_eq_ok_iff.mpr rfl
  · intro document table
    constructor
    · -- A table that was read is the draft it was read as, and its parts fit.
      intro htable
      rcases ofDocument_cases document with ⟨hshape, _⟩ | ⟨draft, hdraft, hbuild⟩
      · rw [hshape] at htable
        exact absurd htable nofun
      · rw [hbuild, mapError_eq_ok_iff] at htable
        exact ⟨draft, hdraft, Draft.build_eq_ok_iff.mp htable ▸ table.valid, htable⟩
    · rintro ⟨draft, hdraft, _, hbuild⟩
      rw [ofDocument_of_storedIn hdraft, mapError_eq_ok_iff, hbuild]
  · intro document fault
    constructor
    · intro hfault
      rcases ofDocument_cases document with ⟨hshape, _⟩ | ⟨draft, hdraft, hbuild⟩
      · rw [hshape] at hfault
        exact absurd hfault nofun
      · rw [hbuild, mapError_eq_error_iff] at hfault
        rcases hfault with ⟨found, hfound, hsame⟩
        rw [DocumentError.table.inj hsame] at hfound
        exact ⟨draft, hdraft, hfound⟩
    · rintro ⟨draft, hdraft, hbuild⟩
      rw [ofDocument_of_storedIn hdraft, mapError_eq_error_iff]
      exact ⟨fault, hbuild, rfl⟩
  · -- A fault of a draft is never reported as a matter of shape.
    intro document
    refine ⟨fun hshape => ?_, ofDocument_of_not_storedIn⟩
    rcases ofDocument_cases document with ⟨_, hnot⟩ | ⟨draft, _, hbuild⟩
    · exact hnot
    · rw [hbuild, mapError_eq_error_iff] at hshape
      rcases hshape with ⟨fault, _, hfault⟩
      exact absurd hfault nofun
  · intro fields default hdefault hmissing
    rw [ofDocument, ofDocument, Draft.ofDocument?_default hdefault hmissing]

end Table

end Decision
