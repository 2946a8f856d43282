import Decision.Text.Visible

/-!
# Quoted Text

Texts between quotes, written so that everything in them shows.

## Main definitions

* `Text.escape`: How a character is written between quotes.
* `Text.quoted`: A text between quotes.
-/

namespace Decision

namespace Text

/-- How a character is written between quotes. One that leaves no mark of its own
    is written as its number, unless a letter stands for it. -/
def escape (c : Char) : List Char :=
  match c with
  | '"' => ['\\', '"']
  | '\\' => ['\\', '\\']
  | '\n' => ['\\', 'n']
  | '\r' => ['\\', 'r']
  | '\t' => ['\\', 't']
  | '\x00' => ['\\', '0']
  | c =>
      if isVisible c then [c]
      else "\\u\x7b".toList ++ Nat.toDigits 16 c.toNat ++ ['\x7d']

/-- A text between quotes. -/
def quoted (text : String) : String :=
  "\"" ++ String.ofList (text.toList.flatMap escape) ++ "\""

end Text

end Decision
