import DataAccess.Json.Printer
/-
**The indented text of a JSON value.**  People read values with one item or entry on a line, two
blanks deeper than what holds it; empty arrays and objects stay on their line.

Main definitions:

* `Json.pretty` — the indented text.

Main results:

* `Json.pretty_string` — a string is written as in the compact text.
-/

set_option autoImplicit false

namespace DataAccess.Json

/-- A new line with blanks in front. -/
def freshLine (depth : Nat) : String := String.ofList ('\n' :: List.replicate (2 * depth) ' ')

mutual

/-- The text of a value that stands `depth` levels deep. -/
def prettyAt (depth : Nat) : Json → String
  | .array (x :: rest) =>
    "[" ++ freshLine (depth + 1) ++ prettyAt (depth + 1) x ++ prettyItems (depth + 1) rest ++
      freshLine depth ++ "]"
  | .object ((key, x) :: rest) =>
    "\x7b" ++ freshLine (depth + 1) ++ quoted key ++ ": " ++ prettyAt (depth + 1) x ++
      prettyFields (depth + 1) rest ++ freshLine depth ++ "\x7d"
  | v => v.text

/-- The texts of further items, each on a line of its own. -/
def prettyItems (depth : Nat) : List Json → String
  | [] => ""
  | x :: rest => "," ++ freshLine depth ++ prettyAt depth x ++ prettyItems depth rest

/-- The texts of further entries, each on a line of its own. -/
def prettyFields (depth : Nat) : List (String × Json) → String
  | [] => ""
  | (key, x) :: rest =>
    "," ++ freshLine depth ++ quoted key ++ ": " ++ prettyAt depth x ++ prettyFields depth rest

end

/-- The indented text of a value. -/
def pretty (v : Json) : String := prettyAt 0 v

@[simp] theorem pretty_string (s : String) : pretty (.string s) = quoted s := by
  simp [pretty, prettyAt, text]

end DataAccess.Json
