/-!
# Key Sets

The names under which a map holds its values: a list of texts in strictly
rising order.

A map could be a list of pairs with a promise that the names rise. Every
statement about values would then carry that promise through lists of maps of
lists, and two maps with the same entries in another order would be different
values until someone sorted them. With the order inside the type, one set of
names has one list, and there is nothing to promise.

## Main definitions

* `Keys`: Names in strictly rising order.
* `insertName`: A name put into its place.
* `Keys.ofList`: The names that occur in a list.

## Theorems

* `mem_insertName`: Inserting a name adds that name and no other.
* `Keys.mem_ofList`: The names of `Keys.ofList` are those of the list.
* `Keys.ofList_names`: Names that rise already are kept as they are.
* `Keys.nodup`: No name occurs twice.
-/

namespace Decision

/-- Puts a name into its place among rising names, unless it is there. -/
def insertName (name : String) : List String → List String
  | [] => [name]
  | other :: rest =>
      if name < other then name :: other :: rest
      else if other < name then other :: insertName name rest
      else other :: rest

theorem mem_insertName {name x : String} {names : List String} :
    x ∈ insertName name names ↔ x = name ∨ x ∈ names := by
  induction names with
  | nil => exact List.mem_cons
  | cons other rest ih =>
      simp only [insertName]
      split
      · exact List.mem_cons
      · next hlt =>
          split
          · simp only [List.mem_cons, ih]
            grind
          · next hgt =>
              -- A name on neither side of another is that name.
              have heq : name = other :=
                String.le_antisymm (String.not_lt.mp hgt) (String.not_lt.mp hlt)
              subst heq
              simp only [List.mem_cons, or_self_left]

theorem pairwise_insertName {name : String} {names : List String}
    (h : names.Pairwise (· < ·)) : (insertName name names).Pairwise (· < ·) := by
  induction names with
  | nil => exact List.pairwise_singleton _ _
  | cons other rest ih =>
      rw [List.pairwise_cons] at h
      rcases h with ⟨hother, hrest⟩
      simp only [insertName]
      split
      · next hlt =>
          -- The new name comes first, and all others come after `other`.
          refine List.Pairwise.cons ?_ (List.Pairwise.cons hother hrest)
          intro x hx
          rcases List.mem_cons.mp hx with rfl | hx
          · exact hlt
          · exact String.lt_trans hlt (hother x hx)
      · split
        · next hgt =>
            -- The new name comes later, and `other` is below it as well.
            refine List.Pairwise.cons ?_ (ih hrest)
            intro x hx
            rcases mem_insertName.mp hx with rfl | hx
            · exact hgt
            · exact hother x hx
        · exact List.Pairwise.cons hother hrest

/-- Names in strictly rising order. -/
structure Keys where
  names : List String
  rising : names.Pairwise (· < ·)
deriving DecidableEq, Repr

namespace Keys

/-- The number of names. -/
def size (keys : Keys) : Nat := keys.names.length

/-- The name at a place. -/
def name (keys : Keys) (i : Fin keys.size) : String := keys.names.get i

/-- No names at all. -/
def empty : Keys := ⟨[], List.Pairwise.nil⟩

/-- The names with one more. -/
def insert (keys : Keys) (name : String) : Keys :=
  ⟨insertName name keys.names, pairwise_insertName keys.rising⟩

/-- The names that occur in a list, each once. -/
def ofList (names : List String) : Keys := names.foldr (fun name keys => keys.insert name) empty

theorem mem_ofList {name : String} {names : List String} :
    name ∈ (ofList names).names ↔ name ∈ names := by
  induction names with
  | nil => exact Iff.rfl
  | cons other rest ih =>
      simp only [ofList, List.foldr_cons, insert, mem_insertName, List.mem_cons] at ih ⊢
      rw [ih]

/-- Names that rise already are kept as they are. -/
theorem ofList_names (keys : Keys) : ofList keys.names = keys := by
  rcases keys with ⟨names, h⟩
  induction names with
  | nil => rfl
  | cons name rest ih =>
      rw [List.pairwise_cons] at h
      have hrest := ih h.2
      simp only [ofList, List.foldr_cons] at hrest ⊢
      rw [hrest]
      -- The first name is inserted in front, being below the next.
      simp only [insert, mk.injEq]
      cases rest with
      | nil => rfl
      | cons other rest => rw [insertName, if_pos (h.1 other List.mem_cons_self)]

/-- No name occurs twice. -/
theorem nodup (keys : Keys) : keys.names.Nodup := by
  refine keys.rising.imp ?_
  intro a b h heq
  exact String.lt_irrefl b (heq ▸ h)

/-- Equal key sets have equal names at equal places. -/
theorem name_cast {keys keys' : Keys} (h : keys = keys') (i : Fin keys.size) :
    keys.name i = keys'.name (i.cast (by rw [h])) := by
  subst h
  rfl

/-- The names place by place are all the names. -/
theorem ofFn_name (keys : Keys) : List.ofFn keys.name = keys.names := by
  apply List.ext_getElem
  · rw [List.length_ofFn]
    rfl
  · intro i hi hi'
    rw [List.getElem_ofFn]
    rfl

end Keys

end Decision
