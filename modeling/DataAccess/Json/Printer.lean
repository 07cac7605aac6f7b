import DataAccess.Number.Shortest
import DataAccess.Json.Basic
/-
**The text of a JSON value.**  Values appear inside messages, keys and search patterns in compact
form: no blanks, entries in insertion order, the shortest digits for numbers that are not integers.

Main definitions:

* `Json.floatStyle` — where positional notation of numbers ends;
* `Json.escape` — the characters of a string between its quotes;
* `Json.text` — the compact text.

Main results:

* `Json.escape_of_plain` — printable characters other than the quote and the backslash stand for
  themselves.
-/

set_option autoImplicit false

namespace DataAccess.Json

/-- Exponents of the leading digit from -5 to 15 are written positionally. -/
def floatStyle : DecimalStyle := ⟨-5, 15⟩

/-- One character of a string. -/
def escapeChar (c : Char) : List Char :=
  if c = '"' then ['\\', '"']
  else if c = '\\' then ['\\', '\\']
  else if c = '\x08' then ['\\', 'b']
  else if c = '\x0c' then ['\\', 'f']
  else if c = '\n' then ['\\', 'n']
  else if c = '\r' then ['\\', 'r']
  else if c = '\t' then ['\\', 't']
  else if c.toNat < 0x20 then
    ['\\', 'u', '0', '0', Nat.digitChar (c.toNat / 16), Nat.digitChar (c.toNat % 16)]
  else [c]

/-- The characters of a string between its quotes. -/
def escape (s : List Char) : List Char := s.flatMap escapeChar

theorem escape_of_plain {s : List Char}
    (h : ∀ c ∈ s, 0x20 ≤ c.toNat ∧ c ≠ '"' ∧ c ≠ '\\') : escape s = s := by
  induction s with
  | nil => rfl
  | cons c rest ih =>
    obtain ⟨low, quote, slash⟩ := h c (by simp)
    have hc : escapeChar c = [c] := by
      have ne : ∀ d : Char, d.toNat < 0x20 → c ≠ d := fun d hd e => by subst e; omega
      simp [escapeChar, quote, slash, ne '\x08' (by decide), ne '\x0c' (by decide),
        ne '\n' (by decide), ne '\r' (by decide), ne '\t' (by decide), Nat.not_lt.2 low]
    have hr := ih fun d hd => h d (List.mem_cons_of_mem _ hd)
    simp only [escape, List.flatMap_cons, hc] at hr ⊢
    simp [hr]

/-- A string with its quotes. -/
def quoted (s : String) : String := String.ofList ('"' :: escape s.toList ++ ['"'])

/-- The text of a number. -/
def numberText : Number → String
  | .integer i _ => toString i
  | .float x => x.text floatStyle

mutual

/-- The compact text of a value. -/
def text : Json → String
  | .null => "null"
  | .bool true => "true"
  | .bool false => "false"
  | .number n => numberText n
  | .string s => quoted s
  | .array items => "[" ++ itemsText items ++ "]"
  | .object fields => "\x7b" ++ fieldsText fields ++ "\x7d"

/-- The texts of the items with commas between them. -/
def itemsText : List Json → String
  | [] => ""
  | [x] => text x
  | x :: y :: rest => text x ++ "," ++ itemsText (y :: rest)

/-- The texts of the entries with commas between them. -/
def fieldsText : List (String × Json) → String
  | [] => ""
  | [(key, x)] => quoted key ++ ":" ++ text x
  | (key, x) :: y :: rest => quoted key ++ ":" ++ text x ++ "," ++ fieldsText (y :: rest)

end

/-- A string as it is, and the text of any other value. -/
def bareText : Json → String
  | .string s => s
  | v => v.text

@[simp] theorem bareText_string (s : String) : bareText (.string s) = s := rfl

end DataAccess.Json
