import Decision.Binary64.Rounding
import Decision.Value.Keys

/-!
# Values

What a variable can hold, what a cell can produce and what a condition is
tested against.

Null is a value like the others, so a variable that holds it is different from
a variable that does not exist. Integers and doubles are different kinds even
where they denote the same number. A map is its key set and a value for each
place in it, so two maps with the same entries are the same map, however they
were put together.

Equality is decided kind by kind. It is the identity of values except where
doubles are involved: the two zeros are equal and a NaN equals nothing, so a
list with a NaN in it does not equal itself.

## Main definitions

* `Value`: The values of a decision table.
* `Value.ofEntries`: The map with these entries; of equal names the last wins.
* `Value.entries`: The entries of a map, names rising.
* `Value.kind`: The name of a kind, as messages use it.
* `Value.asDouble?`: The double that a number stands for.

## Theorems

* `Value.ofEntries_entriesOf`: Putting a map together from its entries gives the
  map.
* `Value.beq_comm`: Equality does not depend on the order of its sides.
-/

namespace Decision

/-- The values that variables hold and cells produce. -/
inductive Value where
  /-- The absent value, which is a value all the same. -/
  | null
  | bool (b : Bool)
  /-- A 64-bit integer. -/
  | int (n : Int64)
  /-- A double. -/
  | float (x : Binary64)
  | string (s : String)
  | list (items : List Value)
  /-- A value for every key. -/
  | map (keys : Keys) (item : Fin keys.size → Value)

namespace Value

instance : Inhabited Value := ⟨.null⟩

/-- Whether a value is the absent one. -/
def isNull : Value → Bool
  | null => true
  | _ => false

/-- The name of the kind of a value. -/
def kind : Value → String
  | null => "null"
  | bool _ => "bool"
  | int _ => "int"
  | float _ => "float"
  | string _ => "string"
  | list _ => "list"
  | map .. => "map"

/-- The double that a number stands for, rounded if it is an integer out of
    reach; no other value stands for one. -/
def asDouble? : Value → Option Binary64
  | int n => some (.ofInt n.toInt)
  | float x => some x
  | _ => none

/-! ## Maps -/

/-- The value that a list of entries gives to a name, where the last entry of
    that name counts. -/
def lastValue? (name : String) : List (String × Value) → Option Value
  | [] => none
  | (other, value) :: rest =>
      match lastValue? name rest with
      | some later => some later
      | none => if other = name then some value else none

/-- The map with these entries. -/
def ofEntries (entries : List (String × Value)) : Value :=
  let keys := Keys.ofList (entries.map Prod.fst)
  map keys fun i => (lastValue? (keys.name i) entries).getD null

/-- The entries of a map by rising name. -/
def entriesOf (keys : Keys) (item : Fin keys.size → Value) : List (String × Value) :=
  List.ofFn fun i => (keys.name i, item i)

/-- The entries of a map by rising name, and none for other values. -/
def entries : Value → List (String × Value)
  | map keys item => entriesOf keys item
  | _ => []

/-- Maps with equal keys and equal values at equal places are equal. -/
theorem map_congr {keys keys' : Keys} (h : keys = keys') {item : Fin keys.size → Value}
    {item' : Fin keys'.size → Value} (hi : ∀ i, item i = item' (i.cast (by rw [h]))) :
    map keys item = map keys' item' := by
  subst h
  congr 1
  funext i
  exact hi i

theorem lastValue?_eq_none {entries : List (String × Value)} {name : String}
    (h : name ∉ entries.map Prod.fst) : lastValue? name entries = none := by
  induction entries with
  | nil => rfl
  | cons entry rest ih =>
      rw [List.map_cons, List.mem_cons, not_or] at h
      simp only [lastValue?, ih h.2, if_neg (Ne.symm h.1)]

/-- Where no name occurs twice, every entry is the last of its name. -/
theorem lastValue?_eq_some {entries : List (String × Value)} {name : String} {value : Value}
    (h : (entries.map Prod.fst).Nodup) (hmem : (name, value) ∈ entries) :
    lastValue? name entries = some value := by
  induction entries with
  | nil => cases hmem
  | cons entry rest ih =>
      rw [List.map_cons, List.nodup_cons] at h
      rcases List.mem_cons.mp hmem with heq | hmem
      · subst heq
        simp only [lastValue?, lastValue?_eq_none h.1, if_true]
      · simp only [lastValue?, ih h.2 hmem]

/-- Putting a map together from its entries gives the map. -/
theorem ofEntries_entriesOf (keys : Keys) (item : Fin keys.size → Value) :
    ofEntries (entriesOf keys item) = map keys item := by
  have hnames : (entriesOf keys item).map Prod.fst = keys.names := by
    rw [entriesOf, List.map_ofFn]
    exact keys.ofFn_name
  have hkeys : Keys.ofList ((entriesOf keys item).map Prod.fst) = keys := by
    rw [hnames, Keys.ofList_names]
  refine map_congr hkeys fun i => ?_
  -- No name occurs twice, so the value at a place is the last of its name.
  have hmem : (keys.name (i.cast (by rw [hkeys])), item (i.cast (by rw [hkeys]))) ∈
      entriesOf keys item := List.mem_ofFn.mpr ⟨_, rfl⟩
  rw [Keys.name_cast hkeys, lastValue?_eq_some (by rw [hnames]; exact keys.nodup) hmem]
  rfl

/-! ## Equality -/

mutual

/-- Whether two values are of one kind and equal in it. -/
def beq : Value → Value → Bool
  | null, null => true
  | bool a, bool b => a == b
  | int a, int b => a == b
  | float x, float y => x == y
  | string s, string t => s == t
  | list as, list bs => beqItems as bs
  | map keys item, map keys' item' =>
      if h : keys = keys' then
        (List.finRange keys.size).all fun i => beq (item i) (item' (i.cast (by rw [h])))
      else false
  | _, _ => false

/-- Whether two lists have equal items at equal places and no others. -/
def beqItems : List Value → List Value → Bool
  | [], [] => true
  | a :: as, b :: bs => beq a b && beqItems as bs
  | _, _ => false

end

instance : BEq Value := ⟨beq⟩

mutual

/-- Equality does not depend on the order of its sides. -/
theorem beq_comm (a b : Value) : beq a b = beq b a := by
  cases a with
  | list as =>
      cases b with
      | list bs => simp only [beq]; exact beqItems_comm as bs
      | _ => simp only [beq]
  | map keys item =>
      cases b with
      | map keys' item' =>
          simp only [beq]
          by_cases h : keys = keys'
          · subst h
            simp only [dite_true]
            congr 1
            funext i
            exact beq_comm (item i) (item' i)
          · rw [dif_neg h, dif_neg fun h' => h h'.symm]
      | _ => simp only [beq]
  | float x =>
      cases b with
      | float y => simp only [beq]; exact Binary64.beq_comm x y
      | _ => simp only [beq]
  | bool x => cases b <;> simp only [beq, Bool.beq_comm]
  | int n => cases b <;> simp only [beq, BEq.comm]
  | string s => cases b <;> simp only [beq, BEq.comm]
  | null => cases b <;> simp only [beq]

theorem beqItems_comm (as bs : List Value) : beqItems as bs = beqItems bs as := by
  cases as with
  | nil => cases bs <;> simp only [beqItems]
  | cons a as =>
      cases bs with
      | nil => simp only [beqItems]
      | cons b bs => simp only [beqItems, beq_comm a b, beqItems_comm as bs]

end

end Value

end Decision
