import Decision.Proofs.Evaluation.Integers
import Decision.Value.Compare
import Mathlib.Order.Compare

/-!
# The Least and the Greatest Integer

Which value is found when the least or the greatest of a column of integers is
asked for.

The values are compared as the doubles they stand for. Rounding keeps the order
of integers but can make two of them one double, and then their places in the
column decide: the first of the least is taken, and the last of the greatest. So
the least integer is found if nothing in front of it stands for the same double,
and the greatest if nothing behind it does. Whatever is found stands for the
right double in any case. Within 2^53 different integers stand for different
doubles, and there nothing can go wrong.

Both searches are one walk along the column that keeps a best value and lets a
later one take its place. `Survives` says what is left at the end, for any such
walk: an item that beats everything in front of it and is beaten by nothing
behind it. A list has one such item at most.

## Main definitions

* `survivor`: A walk along a list that keeps the best item so far.
* `Survives`: What such a walk ends with.
* `Preference`: What a walk needs to know about better and worse.
* `Value.place`: The place of a number among all doubles.

## Theorems

* `survivor_eq_iff`: The walk along a list ends with the item that survives.
* `Value.leastFrom_eq_survivor`, `Value.greatestFrom_eq_survivor`: The least and
  the greatest number are found by such walks.
* `Aggregator.extremes_of_areLongs`: The least and the greatest of a column of
  integers.
* `Aggregator.extremes_of_small`: Within 2^53 they are the least and the greatest
  integer.
-/

namespace Decision

/-! ## The item that survives -/

section Survival

variable {α β : Type}

/-- What is left of a list when a later item takes the place of the best so far
    if it beats it. -/
def survivor (beats : α → α → Prop) [DecidableRel beats] (best : α) : List α → α
  | [] => best
  | item :: items => survivor beats (if beats item best then item else best) items

/-- An item beats every item in front of it and is beaten by none behind it. -/
def Survives (beats : α → α → Prop) (items : List α) (item : α) : Prop :=
  ∃ before after, items = before ++ item :: after ∧ (∀ other ∈ before, beats item other) ∧
    ∀ other ∈ after, ¬ beats other item

/-- Whatever beats an item beats what the item beats, and what does not beat it. -/
structure Preference (beats : α → α → Prop) : Prop where
  of_beats : ∀ {a b c : α}, beats a b → beats b c → beats a c
  of_not_beats : ∀ {a b c : α}, beats a b → ¬ beats c b → beats a c

variable {beats : α → α → Prop}

theorem Preference.comap (h : Preference beats) (f : β → α) :
    Preference fun a b => beats (f a) (f b) where
  of_beats := h.of_beats
  of_not_beats := h.of_not_beats

theorem mem_of_survives {items : List α} {item : α} (h : Survives beats items item) :
    item ∈ items := by
  rcases h with ⟨before, after, rfl, _, _⟩
  exact List.mem_append_right before List.mem_cons_self

/-- An item of the list does not beat the one that survives, unless that one beats
    it as well or the two are one. -/
theorem cases_of_survives {items : List α} {item other : α} (h : Survives beats items item)
    (hother : other ∈ items) : beats item other ∨ item = other ∨ ¬ beats other item := by
  rcases h with ⟨before, after, rfl, hbefore, hafter⟩
  rcases List.mem_append.mp hother with hother | hother
  · exact Or.inl (hbefore other hother)
  · rcases List.mem_cons.mp hother with rfl | hother
    · exact Or.inr (Or.inl rfl)
    · exact Or.inr (Or.inr (hafter other hother))

/-- Of two items that survive, neither can stand in front of the other. -/
theorem survives_unique {items : List α} {a b : α} (ha : Survives beats items a)
    (hb : Survives beats items b) : a = b := by
  rcases ha with ⟨before, after, rfl, hbefore, hafter⟩
  rcases hb with ⟨before', after', heq, hbefore', hafter'⟩
  rcases List.append_eq_append_iff.mp heq with ⟨between, rfl, hrest⟩ | ⟨between, rfl, hrest⟩
  · cases between with
    | nil => exact (List.cons.inj hrest).1
    | cons c between =>
        rcases List.cons.inj hrest with ⟨rfl, rfl⟩
        have hbeats := hbefore' a (List.mem_append_right before List.mem_cons_self)
        exact absurd hbeats (hafter b (List.mem_append_right between List.mem_cons_self))
  · cases between with
    | nil => exact (List.cons.inj hrest).1.symm
    | cons c between =>
        rcases List.cons.inj hrest with ⟨rfl, rfl⟩
        have hbeats := hbefore b (List.mem_append_right before' List.mem_cons_self)
        exact absurd hbeats (hafter' a (List.mem_append_right between List.mem_cons_self))

variable [DecidableRel beats]

/-- What is left of a list survives in it. -/
theorem survives_survivor (h : Preference beats) (best : α) (items : List α) :
    Survives beats (best :: items) (survivor beats best items) := by
  induction items generalizing best with
  | nil => exact ⟨[], [], rfl, List.forall_mem_nil _, List.forall_mem_nil _⟩
  | cons item items ih =>
      unfold survivor
      by_cases hitem : beats item best
      · -- The best so far is gone, and whatever survives beats it too.
        rw [if_pos hitem]
        rcases ih item with ⟨before, after, heq, hbefore, hafter⟩
        refine ⟨best :: before, after, by rw [heq, List.cons_append], ?_, hafter⟩
        refine List.forall_mem_cons.mpr ⟨?_, hbefore⟩
        cases before with
        | nil =>
            rw [← (List.cons.inj heq).1]
            exact hitem
        | cons first before =>
            rw [(List.cons.inj heq).1] at hitem
            exact h.of_beats (hbefore first List.mem_cons_self) hitem
      · -- The item is gone, and it stands behind the best so far.
        rw [if_neg hitem]
        rcases ih best with ⟨before, after, heq, hbefore, hafter⟩
        generalize survivor beats best items = last at heq hbefore hafter
        cases before with
        | nil =>
            rcases List.cons.inj heq with ⟨rfl, rfl⟩
            exact ⟨[], item :: items, rfl, List.forall_mem_nil _,
              List.forall_mem_cons.mpr ⟨hitem, hafter⟩⟩
        | cons first before =>
            rcases List.cons.inj heq with ⟨rfl, rfl⟩
            rcases List.forall_mem_cons.mp hbefore with ⟨hbest, hbefore⟩
            exact ⟨best :: item :: before, after, rfl, List.forall_mem_cons.mpr ⟨hbest,
              List.forall_mem_cons.mpr ⟨h.of_not_beats hbest hitem, hbefore⟩⟩, hafter⟩

/-- The walk along a list ends with the item that survives. -/
theorem survivor_eq_iff (h : Preference beats) {best item : α} {items : List α} :
    survivor beats best items = item ↔ Survives beats (best :: items) item := by
  have hsurvives := survives_survivor h best items
  constructor
  · rintro rfl
    exact hsurvives
  · intro hitem
    exact survives_unique hsurvives hitem

/-- A walk along named items is the walk along their names. -/
theorem survivor_map (f : β → α) (best : β) (items : List β) :
    survivor beats (f best) (items.map f) =
      f (survivor (fun a b => beats (f a) (f b)) best items) := by
  induction items generalizing best with
  | nil => rfl
  | cons item items ih =>
      rw [List.map_cons, survivor, survivor, ← apply_ite f, ih]

end Survival

/-! ## Numbers -/

namespace Value

/-- The place of a number among all doubles. -/
def place (value : Value) : Int := value.toDouble.totalPosition

theorem numericOrder_eq_lt_iff (a b : Value) : numericOrder a b = .lt ↔ a.place < b.place :=
  compare_lt_iff_lt

theorem leastFrom_eq_survivor (best : Value) (values : List Value) :
    leastFrom best values = survivor (fun a b => a.place < b.place) best values := by
  induction values generalizing best with
  | nil => rfl
  | cons value values ih =>
      simp only [leastFrom, survivor, numericOrder_eq_lt_iff, ih]

theorem greatestFrom_eq_survivor (best : Value) (values : List Value) :
    greatestFrom best values = survivor (fun a b => b.place ≤ a.place) best values := by
  induction values generalizing best with
  | nil => rfl
  | cons value values ih =>
      -- The later of two equals is taken, so not to be less is to win.
      simp only [greatestFrom, survivor, numericOrder_eq_lt_iff, ih, ← Int.not_lt, ite_not]

theorem preference_place_lt : Preference fun a b : Value => a.place < b.place where
  of_beats := by
    intro a b c hab hbc
    omega
  of_not_beats := by
    intro a b c hab hcb
    omega

theorem preference_place_le : Preference fun a b : Value => b.place ≤ a.place where
  of_beats := by
    intro a b c hab hbc
    omega
  of_not_beats := by
    intro a b c hab hcb
    omega

/-! ## Integers -/

theorem place_int_mono {m n : Int64} (h : m.toInt ≤ n.toInt) : (int m).place ≤ (int n).place :=
  Binary64.totalPosition_ofInt_mono h

theorem place_int_inj {m n : Int64} :
    (int m).place = (int n).place ↔ Binary64.ofInt m.toInt = Binary64.ofInt n.toInt :=
  Binary64.totalPosition_inj

/-- One integer of a column is less than another if its double is. -/
def Less (m n : Int64) : Prop := (int m).place < (int n).place

/-- One integer of a column counts as at least another if its double does. -/
def AtLeast (m n : Int64) : Prop := (int n).place ≤ (int m).place

instance : DecidableRel Less := fun m n =>
  inferInstanceAs (Decidable ((int m).place < (int n).place))

instance : DecidableRel AtLeast := fun m n =>
  inferInstanceAs (Decidable ((int n).place ≤ (int m).place))

theorem leastFrom_map_int (n : Int64) (ns : List Int64) :
    leastFrom (int n) (ns.map int) = int (survivor Less n ns) := by
  rw [leastFrom_eq_survivor, survivor_map]
  rfl

theorem greatestFrom_map_int (n : Int64) (ns : List Int64) :
    greatestFrom (int n) (ns.map int) = int (survivor AtLeast n ns) := by
  rw [greatestFrom_eq_survivor, survivor_map]
  rfl

theorem preference_less : Preference Less := preference_place_lt.comap int

theorem preference_atLeast : Preference AtLeast := preference_place_le.comap int

section Integers

variable {ns : List Int64}

/-- The least integer survives if nothing in front of it stands for its double. -/
theorem survives_less_iff {least : Int64} (hleast : ∀ n ∈ ns, least.toInt ≤ n.toInt) :
    Survives Less ns least ↔ ∃ before after, ns = before ++ least :: after ∧
      ∀ n ∈ before, Binary64.ofInt n.toInt ≠ Binary64.ofInt least.toInt := by
  constructor
  · rintro ⟨before, after, rfl, hbefore, _⟩
    refine ⟨before, after, rfl, ?_⟩
    intro n hn heq
    have hless : (int least).place < (int n).place := hbefore n hn
    rw [place_int_inj.mpr heq] at hless
    omega
  · rintro ⟨before, after, rfl, hbefore⟩
    refine ⟨before, after, rfl, ?_, ?_⟩
    · intro n hn
      -- The double of the least integer is not greater, and it is not the same.
      have hle := place_int_mono (hleast n (List.mem_append_left _ hn))
      have hne : (int n).place ≠ (int least).place := mt place_int_inj.mp (hbefore n hn)
      unfold Less
      omega
    · intro n hn
      have hle := place_int_mono
        (hleast n (List.mem_append_right before (List.mem_cons_of_mem least hn)))
      unfold Less
      omega

/-- The greatest integer survives if nothing behind it stands for its double. -/
theorem survives_atLeast_iff {greatest : Int64}
    (hgreatest : ∀ n ∈ ns, n.toInt ≤ greatest.toInt) :
    Survives AtLeast ns greatest ↔ ∃ before after, ns = before ++ greatest :: after ∧
      ∀ n ∈ after, Binary64.ofInt n.toInt ≠ Binary64.ofInt greatest.toInt := by
  constructor
  · rintro ⟨before, after, rfl, _, hafter⟩
    refine ⟨before, after, rfl, ?_⟩
    intro n hn heq
    have hless : ¬ (int greatest).place ≤ (int n).place := hafter n hn
    rw [place_int_inj.mpr heq] at hless
    omega
  · rintro ⟨before, after, rfl, hafter⟩
    refine ⟨before, after, rfl, ?_, ?_⟩
    · intro n hn
      exact place_int_mono (hgreatest n (List.mem_append_left _ hn))
    · intro n hn
      have hle := place_int_mono
        (hgreatest n (List.mem_append_right before (List.mem_cons_of_mem greatest hn)))
      have hne : (int n).place ≠ (int greatest).place := mt place_int_inj.mp (hafter n hn)
      unfold AtLeast
      omega

/-- Whatever survives stands for the double of the least integer. -/
theorem ofInt_of_survives_less {least found : Int64} (hmem : least ∈ ns)
    (hleast : ∀ n ∈ ns, least.toInt ≤ n.toInt) (h : Survives Less ns found) :
    Binary64.ofInt found.toInt = Binary64.ofInt least.toInt := by
  have hle := place_int_mono (hleast found (mem_of_survives h))
  rw [← place_int_inj]
  rcases cases_of_survives h hmem with hless | rfl | hless
  · unfold Less at hless
    omega
  · rfl
  · unfold Less at hless
    omega

/-- Whatever survives stands for the double of the greatest integer. -/
theorem ofInt_of_survives_atLeast {greatest found : Int64} (hmem : greatest ∈ ns)
    (hgreatest : ∀ n ∈ ns, n.toInt ≤ greatest.toInt) (h : Survives AtLeast ns found) :
    Binary64.ofInt found.toInt = Binary64.ofInt greatest.toInt := by
  have hle := place_int_mono (hgreatest found (mem_of_survives h))
  rw [← place_int_inj]
  rcases cases_of_survives h hmem with hatLeast | rfl | hatLeast
  · unfold AtLeast at hatLeast
    omega
  · rfl
  · unfold AtLeast at hatLeast
    omega

end Integers

end Value

namespace Aggregator

section Extremes

variable {column : List Value}

/-- A folding that is a walk along the integers gives the one that survives. -/
theorem apply_eq_iff_survives {aggregator : Aggregator} {beats : Int64 → Int64 → Prop}
    [DecidableRel beats] (hne : aggregator ≠ count) (hbeats : Preference beats)
    (hfold : ∀ n ns, aggregator.fold? ((n :: ns).map .int) = some (.int (survivor beats n ns)))
    (h : Value.AreLongs column) (name : String) (found : Int64) :
    aggregator.apply name column = .ok (folded name (some (.int found))) ↔
      Survives beats (Value.longs column) found := by
  rcases Value.exists_cons_of_areLongs h with ⟨n, ns, hlongs⟩
  rw [apply_of_areLongs hne h, hlongs, hfold, folded_inj, Value.int.injEq, survivor_eq_iff hbeats]

theorem min_eq_iff (h : Value.AreLongs column) (name : String) (found : Int64) :
    min.apply name column = .ok (folded name (some (.int found))) ↔
      Survives Value.Less (Value.longs column) found := by
  refine apply_eq_iff_survives (by decide) Value.preference_less ?_ h name found
  intro n ns
  rw [← Value.leastFrom_map_int]
  rfl

theorem max_eq_iff (h : Value.AreLongs column) (name : String) (found : Int64) :
    max.apply name column = .ok (folded name (some (.int found))) ↔
      Survives Value.AtLeast (Value.longs column) found := by
  refine apply_eq_iff_survives (by decide) Value.preference_atLeast ?_ h name found
  intro n ns
  rw [← Value.greatestFrom_map_int]
  rfl

/-- Some integer of a column is what is left of it. -/
theorem exists_survives {beats : Int64 → Int64 → Prop} [DecidableRel beats]
    (hbeats : Preference beats) (h : Value.AreLongs column) :
    ∃ found, Survives beats (Value.longs column) found := by
  rcases Value.exists_cons_of_areLongs h with ⟨n, ns, hlongs⟩
  rw [hlongs]
  exact ⟨_, survives_survivor hbeats n ns⟩

/-- The least integer of a column is found if nothing in front of it stands for the
    same double, and the greatest if nothing behind it does. What is found instead
    is an integer of the column that stands for that double. -/
theorem extremes_of_areLongs (h : Value.AreLongs column) (name : String) :
    (∀ least ∈ Value.longs column, (∀ n ∈ Value.longs column, least.toInt ≤ n.toInt) →
      (min.apply name column = .ok (folded name (some (.int least))) ↔
        ∃ before after, Value.longs column = before ++ least :: after ∧
          ∀ n ∈ before, Binary64.ofInt n.toInt ≠ Binary64.ofInt least.toInt) ∧
      ∃ found ∈ Value.longs column, min.apply name column = .ok (folded name (some (.int found))) ∧
        Binary64.ofInt found.toInt = Binary64.ofInt least.toInt) ∧
    (∀ greatest ∈ Value.longs column, (∀ n ∈ Value.longs column, n.toInt ≤ greatest.toInt) →
      (max.apply name column = .ok (folded name (some (.int greatest))) ↔
        ∃ before after, Value.longs column = before ++ greatest :: after ∧
          ∀ n ∈ after, Binary64.ofInt n.toInt ≠ Binary64.ofInt greatest.toInt) ∧
      ∃ found ∈ Value.longs column, max.apply name column = .ok (folded name (some (.int found))) ∧
        Binary64.ofInt found.toInt = Binary64.ofInt greatest.toInt) := by
  constructor
  · intro least hmem hleast
    rcases exists_survives Value.preference_less h with ⟨found, hfound⟩
    refine ⟨?_, found, mem_of_survives hfound, (min_eq_iff h name found).mpr hfound, ?_⟩
    · rw [min_eq_iff h, Value.survives_less_iff hleast]
    · exact Value.ofInt_of_survives_less hmem hleast hfound
  · intro greatest hmem hgreatest
    rcases exists_survives Value.preference_atLeast h with ⟨found, hfound⟩
    refine ⟨?_, found, mem_of_survives hfound, (max_eq_iff h name found).mpr hfound, ?_⟩
    · rw [max_eq_iff h, Value.survives_atLeast_iff hgreatest]
    · exact Value.ofInt_of_survives_atLeast hmem hgreatest hfound

/-- Large integers are found if they stand in the right order: the smaller in front
    for the least, the greater behind for the greatest. -/
theorem extremes_inOrder :
    Value.AreLongs [.int 9007199254740992, .null, .int 9007199254740993] ∧
    min.apply "least" [.int 9007199254740992, .null, .int 9007199254740993] =
      .ok (folded "least" (some (.int 9007199254740992))) ∧
    max.apply "greatest" [.int 9007199254740992, .null, .int 9007199254740993] =
      .ok (folded "greatest" (some (.int 9007199254740993))) := by
  have hlongs : Value.AreLongs [.int 9007199254740992, .null, .int 9007199254740993] :=
    ⟨by decide, by decide⟩
  have hleast : ∀ n ∈ ([9007199254740992, 9007199254740993] : List Int64),
      (9007199254740992 : Int64).toInt ≤ n.toInt :=
    List.forall_mem_cons.mpr ⟨by decide, List.forall_mem_singleton.mpr (by decide)⟩
  have hgreatest : ∀ n ∈ ([9007199254740992, 9007199254740993] : List Int64),
      n.toInt ≤ (9007199254740993 : Int64).toInt :=
    List.forall_mem_cons.mpr ⟨by decide, List.forall_mem_singleton.mpr (by decide)⟩
  have hmin := (extremes_of_areLongs hlongs "least").1 9007199254740992
    List.mem_cons_self hleast
  have hmax := (extremes_of_areLongs hlongs "greatest").2 9007199254740993
    (List.mem_cons_of_mem _ List.mem_cons_self) hgreatest
  refine ⟨hlongs, hmin.1.mpr ?_, hmax.1.mpr ?_⟩
  · exact ⟨[], [9007199254740993], rfl, List.forall_mem_nil _⟩
  · exact ⟨[9007199254740992], [], rfl, List.forall_mem_nil _⟩

/-- In the other order neither is found, since the two stand for one double. -/
theorem extremes_outOfOrder :
    min.apply "least" [.int 9007199254740993, .int 9007199254740992] =
      .ok (folded "least" (some (.int 9007199254740993))) ∧
    max.apply "greatest" [.int 9007199254740993, .int 9007199254740992] =
      .ok (folded "greatest" (some (.int 9007199254740992))) ∧
    Value.compare (.int 9007199254740992) .below (.int 9007199254740993) = some true := by
  refine ⟨by decide +kernel, by decide +kernel, by decide⟩

/-- Within 2^53 the least and the greatest integer are found, in any order. -/
theorem extremes_of_small (h : Value.AreLongs column) (name : String)
    (hsmall : ∀ n ∈ Value.longs column, n.toInt.natAbs ≤ 2 ^ 53) :
    (∀ least ∈ Value.longs column, (∀ n ∈ Value.longs column, least.toInt ≤ n.toInt) →
      min.apply name column = .ok (folded name (some (.int least)))) ∧
    (∀ greatest ∈ Value.longs column, (∀ n ∈ Value.longs column, n.toInt ≤ greatest.toInt) →
      max.apply name column = .ok (folded name (some (.int greatest)))) := by
  -- Two integers of the column that stand for one double are one.
  have hinj : ∀ m ∈ Value.longs column, ∀ n ∈ Value.longs column,
      Binary64.ofInt m.toInt = Binary64.ofInt n.toInt → m = n := by
    intro m hm n hn heq
    exact Int64.toInt_inj.mp (Binary64.ofInt_injOn (hsmall m hm) (hsmall n hn) heq)
  constructor
  · intro least hmem hleast
    rcases exists_survives Value.preference_less h with ⟨found, hfound⟩
    have hdouble := Value.ofInt_of_survives_less hmem hleast hfound
    rw [← hinj found (mem_of_survives hfound) least hmem hdouble]
    exact (min_eq_iff h name found).mpr hfound
  · intro greatest hmem hgreatest
    rcases exists_survives Value.preference_atLeast h with ⟨found, hfound⟩
    have hdouble := Value.ofInt_of_survives_atLeast hmem hgreatest hfound
    rw [← hinj found (mem_of_survives hfound) greatest hmem hdouble]
    exact (max_eq_iff h name found).mpr hfound

end Extremes

end Aggregator

end Decision
