import Decision.Expression.Cache
import Mathlib.Data.Finset.Card

/-!
# What a Memory Holds

A memory that is only ever used for reading holds the readings of the texts it
was used for, and nothing else.

The memory is keyed by text and the reader looks at nothing but the text, so a
reading that was kept is as good as a new one. The language of a cell is not
part of the key and decides whether the memory is used at all. So what matters
of the cells that came by is the set of their texts, with the cells left out
that are in another language or cannot be read.

Everything is stated for one reader and one memory. There are two of each, and
they know nothing of each other.

## Main definitions

* `Expression.isReadable`: A cell is in the simple language and can be read.
* `Expression.readable`: The texts of the cells that are.
* `Cache.Holds`: A memory holds the readings of some texts.

## Theorems

* `readThrough_answer`: Reading through a memory is reading.
* `readThrough_holds`: Afterwards the memory holds what it should for one cell more.
* `readThrough_of_not_isReadable`: A cell that cannot be read leaves no trace.
* `size_of_holds`: A memory is as large as the set of its texts.
-/

namespace Decision

variable {α : Type} {parse? : String → Option α}

namespace Expression

/-- Whether a cell is written in the simple language and its text can be read. -/
def isReadable (parse? : String → Option α) (cell : Expression) : Bool :=
  cell.isSimple && (parse? cell.text).isSome

/-- The texts of the cells that can be read, each of them once. -/
def readable (parse? : String → Option α) (cells : List Expression) : Finset String :=
  ((cells.filter (isReadable parse?)).map text).toFinset

theorem mem_readable_append (text : String) (cells : List Expression) (cell : Expression) :
    text ∈ readable parse? (cells ++ [cell]) ↔
      text ∈ readable parse? cells ∨ cell.isReadable parse? = true ∧ text = cell.text := by
  rw [readable, List.filter_append, List.map_append, List.toFinset_append, Finset.mem_union,
    ← readable]
  refine or_congr_right ?_
  by_cases hcell : cell.isReadable parse? = true
  · rw [List.filter_cons_of_pos hcell]
    simp only [List.filter_nil, List.map_cons, List.map_nil, List.mem_toFinset,
      List.mem_singleton, hcell, true_and]
  · rw [List.filter_cons_of_neg hcell]
    exact iff_of_false (Finset.notMem_empty text) fun h => hcell h.1

theorem checkLanguage_of_isSimple {cell : Expression} (h : cell.isSimple = true) :
    cell.checkLanguage = .ok () := by
  unfold checkLanguage
  split
  · rfl
  · rw [if_pos h]

theorem checkLanguage_of_not_isSimple {cell : Expression} (h : cell.isSimple = false) :
    ∃ reason, cell.checkLanguage = .error reason := by
  unfold checkLanguage
  split
  · rename_i hlanguage
    rw [isSimple, hlanguage] at h
    exact absurd h Bool.true_eq_false.mp
  · rename_i language _
    rw [if_neg (by rw [h]; exact Bool.false_ne_true)]
    exact ⟨.unsupportedLanguage language, rfl⟩

end Expression

namespace Cache

/-- A memory holds the readings of some texts and of no others. -/
structure Holds (parse? : String → Option α) (memory : Std.ExtTreeMap String α)
    (texts : Finset String) : Prop where
  reading : ∀ text found, memory[text]? = some found → parse? text = some found
  known : ∀ text, text ∈ memory ↔ text ∈ texts

theorem holds_empty :
    Holds parse? (∅ : Std.ExtTreeMap String α) (Expression.readable parse? []) := by
  constructor
  · intro text found hfound
    rw [Std.ExtTreeMap.getElem?_empty] at hfound
    exact absurd hfound (by simp only [reduceCtorEq, not_false_eq_true])
  · intro text
    exact iff_of_false Std.ExtTreeMap.not_mem_empty (Finset.notMem_empty text)

/-- A memory is as large as the set of the texts it holds the readings of. -/
theorem size_of_holds {memory : Std.ExtTreeMap String α} {texts : Finset String}
    (h : Holds parse? memory texts) : memory.size = texts.card := by
  have hkeys : texts = memory.keys.toFinset := by
    ext text
    rw [List.mem_toFinset, Std.ExtTreeMap.mem_keys, h.known]
  rw [hkeys, List.toFinset_card_of_nodup Std.ExtTreeMap.nodup_keys, Std.ExtTreeMap.length_keys]

/-- A cell that cannot be read leaves no trace in a memory. -/
theorem readThrough_of_not_isReadable {cell : Expression} (h : cell.isReadable parse? = false)
    (memory : Std.ExtTreeMap String α) : (readThrough parse? memory cell).2 = memory := by
  rw [Expression.isReadable, Bool.and_eq_false_iff] at h
  unfold readThrough
  rcases h with hlanguage | hparse
  · rcases Expression.checkLanguage_of_not_isSimple hlanguage with ⟨reason, hreason⟩
    rw [hreason]
  · have hnone : parse? cell.text = none := by
      rw [← Option.not_isSome_iff_eq_none, hparse]
      exact Bool.false_ne_true
    rw [Expression.readWith, hnone]
    cases cell.checkLanguage with
    | error reason => rfl
    | ok _ => cases memory[cell.text]? <;> rfl

/-- A cell that is not readable, or whose text is known, adds nothing. -/
theorem holds_append {memory : Std.ExtTreeMap String α} {cells : List Expression}
    {cell : Expression} (h : Holds parse? memory (Expression.readable parse? cells))
    (hknown : cell.isReadable parse? = true → cell.text ∈ memory) :
    Holds parse? memory (Expression.readable parse? (cells ++ [cell])) := by
  refine ⟨h.reading, fun text => ?_⟩
  rw [Expression.mem_readable_append, ← h.known]
  constructor
  · exact Or.inl
  · rintro (htext | ⟨hcell, rfl⟩)
    · exact htext
    · exact hknown hcell

theorem holds_insert {memory : Std.ExtTreeMap String α} {cells : List Expression}
    {cell : Expression} {found : α} (h : Holds parse? memory (Expression.readable parse? cells))
    (hcell : cell.isReadable parse? = true) (hparse : parse? cell.text = some found) :
    Holds parse? (memory.insert cell.text found)
      (Expression.readable parse? (cells ++ [cell])) := by
  constructor
  · intro text other hother
    rw [Std.ExtTreeMap.getElem?_insert] at hother
    by_cases htext : compare cell.text text = .eq
    · rw [if_pos htext] at hother
      rw [← Std.LawfulEqOrd.eq_of_compare htext, hparse, hother]
    · rw [if_neg htext] at hother
      exact h.reading text other hother
  · intro text
    rw [Std.ExtTreeMap.mem_insert, Expression.mem_readable_append, h.known,
      Std.compare_eq_iff_eq]
    constructor
    · rintro (rfl | htext)
      · exact Or.inr ⟨hcell, rfl⟩
      · exact Or.inl htext
    · rintro (htext | ⟨_, rfl⟩)
      · exact Or.inr htext
      · exact Or.inl rfl

/-- Reading through a memory is reading. -/
theorem readThrough_answer {memory : Std.ExtTreeMap String α} {texts : Finset String}
    (h : Holds parse? memory texts) (cell : Expression) :
    (readThrough parse? memory cell).1 = (do cell.checkLanguage; cell.readWith parse?) := by
  unfold readThrough
  cases cell.checkLanguage with
  | error reason => rfl
  | ok _ =>
      cases hfound : memory[cell.text]? with
      | some found =>
          -- What was kept is what the reader would find again.
          simp only [Expression.readWith, h.reading cell.text found hfound]
          rfl
      | none =>
          simp only [Expression.readWith]
          cases parse? cell.text <;> rfl

/-- A memory that holds what it should for some cells still does after one cell
    more. -/
theorem readThrough_holds {memory : Std.ExtTreeMap String α} {cells : List Expression}
    (h : Holds parse? memory (Expression.readable parse? cells)) (cell : Expression) :
    Holds parse? (readThrough parse? memory cell).2
      (Expression.readable parse? (cells ++ [cell])) := by
  cases hcell : cell.isReadable parse? with
  | false =>
      rw [readThrough_of_not_isReadable hcell]
      refine holds_append h fun hreadable => ?_
      rw [hcell] at hreadable
      exact absurd hreadable Bool.false_ne_true
  | true =>
      rcases Bool.and_eq_true_iff.mp hcell with ⟨hsimple, hsome⟩
      rcases Option.isSome_iff_exists.mp hsome with ⟨found, hparse⟩
      cases hfound : memory[cell.text]? with
      | some other =>
          have hmem : cell.text ∈ memory := by
            rw [Std.ExtTreeMap.mem_iff_isSome_getElem?, hfound]
            rfl
          simp only [readThrough, Expression.checkLanguage_of_isSimple hsimple, hfound]
          exact holds_append h fun _ => hmem
      | none =>
          simp only [readThrough, Expression.checkLanguage_of_isSimple hsimple, hfound,
            Expression.readWith, hparse]
          exact holds_insert h hcell hparse

end Cache

end Decision
