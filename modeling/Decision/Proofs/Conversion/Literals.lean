import Decision.Proofs.Condition.Composition
import Decision.Proofs.Condition.Rendering
import Decision.Proofs.Conversion.Integers

/-!
# Number Literals and the Numeric Types

A number means the same in a cell and in a text that is converted.

Four readers take a number from a text: the two of the cells, and those of the
integer types and of the double type. They do not accept the same texts. The
types allow a leading plus, the double type also allows a power of ten and the
names of the infinities, and only a cell tells integers and doubles apart by
the point. Where a cell has a number, though, the numeric type has the same one.
No reader sees the white space around a text, so all of them meet the derivation
of the literal, and a derivation leaves nothing open: its digits denote one
integer, or they denote one decimal number and with it the nearest double.

In the other direction the decimal form of an integer is a literal. Every reader
of integers therefore gets it back, whatever white space a person types around it.

## Main definitions

* `Text.IsBlank`: A text of white space, which may be empty.

## Theorems

* `Operand.trim_of_written`: White space around an operand is cut off.
* `Operand.readInteger_of_written`, `readDouble_of_written`: The types read a literal
  as the grammar does.
* `convert_literals`: A number in a cell is the number of the type.
* `readers_of_integerText`: The decimal form of an integer reads back everywhere.
* `numbers_read_alike`: Both.
-/

namespace Decision

/-- A text of white space, which may be empty. -/
def Text.IsBlank (text : String) : Prop := ∀ c ∈ text.toList, isBlank c = true

/-- White space is cut off up to the first and the last character that is none. -/
theorem Text.trim_append {before cs after : List Char} (hbefore : ∀ c ∈ before, isBlank c = true)
    (hafter : ∀ c ∈ after, isBlank c = true)
    (hfirst : ∃ c tail, cs = c :: tail ∧ isBlank c = false)
    (hlast : ∃ front c, cs = front ++ [c] ∧ isBlank c = false) :
    trim (before ++ cs ++ after) = cs := by
  have hleft : (before ++ cs ++ after).dropWhile isBlank = cs ++ after := by
    rcases hfirst with ⟨c, tail, rfl, hc⟩
    rw [List.append_assoc, List.dropWhile_append_of_pos hbefore, List.cons_append,
      List.dropWhile_cons_of_neg]
    rw [hc]
    exact Bool.false_ne_true
  rw [trim_eq_rdropWhile, hleft]
  rcases hlast with ⟨front, c, rfl, hc⟩
  rw [List.append_assoc, List.singleton_append, rdropWhile_append_cons hc,
    List.rdropWhile_eq_nil_iff.mpr hafter]

namespace Operand

/-- White space around an operand is cut off, and nothing of the operand is. -/
theorem trim_of_written {text before after : String} {operand : Operand}
    (h : operand.Written text.toList) (hbefore : Text.IsBlank before)
    (hafter : Text.IsBlank after) :
    Text.trim (before ++ text ++ after).toList = text.toList := by
  rw [String.toList_append, String.toList_append]
  exact Text.trim_append hbefore hafter (Token.ends_of_written (.operand h)).1
    (Token.ends_of_written (.operand h)).2

/-- A number in an output cell is derived by the grammar. -/
theorem written_of_parse? {text : String} {value : Value} (hvalue : value ≠ .null)
    (h : parse? text = some (.literal value)) :
    Operand.Written (Text.trim text.toList) (.literal value) := by
  rcases (parse?_eq_some_iff text (.literal value)).mp h with ⟨_, hnull⟩ | hwritten
  · exact absurd (Operand.literal.inj hnull) hvalue
  · exact hwritten

/-- The integer types read an integer literal as the integer that it is. -/
theorem readInteger_of_written {cs : List Char} {n : Int64}
    (h : Operand.Written cs (.literal (.int n))) : Numeral.readInteger cs = .ok n := by
  cases h with
  | int hminus hdigits hn =>
      rw [readInteger_append hminus hdigits]
      exact (Numeral.readSigned_eq_ok_iff _ hdigits.1 hdigits.2 n).mpr hn

/-- The double type reads a literal with a point as the double that it is. -/
theorem readDouble_of_written {cs : List Char} {x : Binary64}
    (h : Operand.Written cs (.literal (.float x))) : Numeral.readDouble cs = .ok x := by
  cases h with
  | float hminus hwhole hfraction =>
      rw [readDouble_append hminus hwhole]
      exact readUnsigned_point _ hwhole hfraction

end Operand

namespace BasicType

theorem long_string {text : String} {n : Int64}
    (h : Numeral.readInteger (Text.trim text.toList) = .ok n) :
    long.convert (.string text) = .ok (.int n) :=
  ((convert_integers _).1 _).mpr ⟨n, rfl, .string (Numeral.readInteger_eq_ok_iff.mp h)⟩

theorem double_string {text : String} {x : Binary64}
    (h : Numeral.readDouble (Text.trim text.toList) = .ok x) :
    double.convert (.string text) = .ok (.float x) := by
  show (((Numeral.readDouble (Text.trim text.toList)).mapError (ConversionError.notDouble text))
    >>= fun y => Except.ok (Value.float y)) = _
  rw [h]
  rfl

/-- A number in an output cell is the number that the numeric type makes of the
    text of the cell. -/
theorem convert_literals (text : String) :
    (∀ n, Operand.parse? text = some (.literal (.int n)) →
      long.convert (.string text) = .ok (.int n)) ∧
    ∀ x, Operand.parse? text = some (.literal (.float x)) →
      double.convert (.string text) = .ok (.float x) := by
  refine ⟨fun n h => ?_, fun x h => ?_⟩
  · exact long_string (Operand.readInteger_of_written (Operand.written_of_parse? nofun h))
  · exact double_string (Operand.readDouble_of_written (Operand.written_of_parse? nofun h))

/-- Every reader of integers takes the decimal form of an integer for that integer,
    with white space around it. -/
theorem readers_of_integerText (n : Int64) {before after : String} (hbefore : Text.IsBlank before)
    (hafter : Text.IsBlank after) :
    let text := before ++ (Value.int n).text ++ after
    Operand.parse? text = some (.literal (.int n)) ∧
      Condition.parse? text = some (.anyOf [.compare .equal (.literal (.int n))]) ∧
      long.convert (.string text) = .ok (.int n) ∧
      ∀ result, integer.convert (.string text) = .ok result ↔
        result = .int n ∧ -2 ^ 31 ≤ n.toInt ∧ n.toInt < 2 ^ 31 := by
  intro text
  have hwritten : Operand.Written (Value.int n).text.toList (.literal (.int n)) := by
    rw [Value.text, String.toList_ofList]
    exact Operand.written_integerText n
  -- All readers cut the white space off, and meet the text of the integer.
  have htrim : Text.trim text.toList = (Value.int n).text.toList :=
    Operand.trim_of_written hwritten hbefore hafter
  have hne : Text.trim text.toList ≠ [] := by
    rcases Operand.starts_of_written hwritten with ⟨c, tail, hcs, _⟩
    rw [htrim, hcs]
    exact List.cons_ne_nil c tail
  have hparse : Operand.parse? text = some (.literal (.int n)) := by
    refine (Operand.parse?_eq_some_iff text _).mpr (Or.inr ?_)
    rw [htrim]
    exact hwritten
  have hlong : long.convert (.string text) = .ok (.int n) := (convert_literals text).1 n hparse
  refine ⟨hparse, (Operand.parse?_iff_equals hne _).mp hparse, hlong, fun result => ?_⟩
  rw [(convert_integers (.string text)).2.2 result, hlong, Except.ok.injEq]
  constructor
  · rintro ⟨rfl, m, hm, hrange⟩
    rw [← Value.int.inj hm] at hrange
    exact ⟨rfl, hrange⟩
  · rintro ⟨rfl, hrange⟩
    exact ⟨rfl, n, rfl, hrange⟩

/-- Wherever a cell has a number, the numeric type makes the same number of the text.
    And the text that the string type makes of an integer is read back by all readers
    of integers, with any white space around it, where the narrower type keeps to its
    own range. -/
theorem numbers_read_alike :
    (∀ text n, Operand.parse? text = some (.literal (.int n)) →
      long.convert (.string text) = .ok (.int n)) ∧
    (∀ text x, Operand.parse? text = some (.literal (.float x)) →
      double.convert (.string text) = .ok (.float x)) ∧
    ∀ n : Int64, ∃ written, string.convert (.int n) = .ok (.string written) ∧
      ∀ before after, Text.IsBlank before → Text.IsBlank after →
        let text := before ++ written ++ after
        Operand.parse? text = some (.literal (.int n)) ∧
          Condition.parse? text = some (.anyOf [.compare .equal (.literal (.int n))]) ∧
          long.convert (.string text) = .ok (.int n) ∧
          ∀ result, integer.convert (.string text) = .ok result ↔
            result = .int n ∧ -2 ^ 31 ≤ n.toInt ∧ n.toInt < 2 ^ 31 :=
  ⟨fun text => (convert_literals text).1, fun text => (convert_literals text).2,
    fun n => ⟨(Value.int n).text, rfl, fun _ _ => readers_of_integerText n⟩⟩

/-- Minus zero with zeros in front is the integer 0 and the negative double 0. The
    least integer between a no-break space and a line feed is read back, and has no
    room in 32 bits. -/
theorem numbers_read_alike_extremes :
    long.convert (.string "-000") = .ok (.int 0) ∧
      double.convert (.string " -00.0\t") = .ok (.float (.zero true)) ∧
      Condition.parse? "\u00a0-9223372036854775808\n" =
        some (.anyOf [.compare .equal (.literal (.int Int64.minValue))]) ∧
      ¬ ∃ result, integer.convert (.string "\u00a0-9223372036854775808\n") = .ok result := by
  rcases numbers_read_alike with ⟨hlong, hdouble, hinteger⟩
  have hwhole : Operand.parse? "-000" = some (.literal (.int 0)) := by decide +kernel
  have hpoint : Operand.parse? " -00.0\t" = some (.literal (.float (.zero true))) := by
    decide +kernel
  rcases hinteger Int64.minValue with ⟨written, hwritten, hread⟩
  have htext : written = "-9223372036854775808" := by
    have hconvert : string.convert (.int Int64.minValue) =
        .ok (.string "-9223372036854775808") := by decide +kernel
    rw [hwritten] at hconvert
    exact Value.string.inj (Except.ok.inj hconvert)
  subst htext
  have hspace : Text.IsBlank "\u00a0" := List.all_eq_true.mp (by decide)
  have hfeed : Text.IsBlank "\n" := List.all_eq_true.mp (by decide)
  rcases hread "\u00a0" "\n" hspace hfeed with ⟨_, hequal, _, hrange⟩
  refine ⟨hlong _ _ hwhole, hdouble _ _ hpoint, hequal, ?_⟩
  rintro ⟨result, hresult⟩
  exact absurd ((hrange result).mp hresult).2.1 (by decide)

end BasicType

end Decision
