import Decision.Numeral.Double
import Decision.Value.Basic

/-!
# Values as Text

How values appear in results and messages.

The text is for people. A string stands between quotes with its characters as
they are, quotes and line breaks included, so the text of a value does not
determine the value and nothing reads it back.

## Main definitions

* `commaSeparated`: Texts one after the other with commas between.
* `Value.text`: The text of a value.
-/

namespace Decision

/-- Texts one after the other, a comma and a space between two. -/
def commaSeparated (texts : List String) : String := ", ".intercalate texts

namespace Value

mutual

/-- The text of a value. -/
def text : Value → String
  | null => "null"
  | bool true => "true"
  | bool false => "false"
  | int n => String.ofList (Numeral.integerText n)
  | float x => String.ofList (Numeral.doubleText x)
  | string s => "\"" ++ s ++ "\""
  | list items => "[" ++ commaSeparated (itemTexts items) ++ "]"
  | map keys item =>
      "\x7b" ++ commaSeparated (List.ofFn fun i => keys.name i ++ ": " ++ text (item i)) ++ "\x7d"

/-- The texts of the items of a list. -/
def itemTexts : List Value → List String
  | [] => []
  | item :: rest => text item :: itemTexts rest

end

theorem itemTexts_eq_map (items : List Value) : itemTexts items = items.map text := by
  induction items with
  | nil => rfl
  | cons item rest ih => rw [itemTexts, ih, List.map_cons]

end Value

end Decision
