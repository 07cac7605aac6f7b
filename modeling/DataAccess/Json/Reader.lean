import DataAccess.Json.Numeral
import DataAccess.Text.Hex
/-
**Reading JSON text.**  The grammar is the standard one: four kinds of blank between tokens, no
comments, no trailing commas, no control characters inside strings, no lone surrogates, and at most
127 nested arrays and objects.

Main definitions:

* `Json.Reader.value` — one value at the start of a text;
* `Json.readEntries?` — a whole text, keeping every entry of an object as written;
* `Json.lastWins` — a repeated key keeps its first place and its last value;
* `Json.read?` — a whole text as a value.

Main results:

* `Json.Reader.skipBlanks_idem` — skipping blanks twice is skipping them once.
-/

set_option autoImplicit false

namespace DataAccess.Json

namespace Reader

open Text (hexValue?)

/-- The blanks that JSON allows between tokens. -/
def isBlank (c : Char) : Bool := c == ' ' || c == '\n' || c == '\r' || c == '\t'

/-- A text without its leading blanks. -/
def skipBlanks (s : List Char) : List Char := s.dropWhile isBlank

theorem skipBlanks_idem (s : List Char) : skipBlanks (skipBlanks s) = skipBlanks s := by
  induction s with
  | nil => rfl
  | cons c rest ih => by_cases h : isBlank c = true <;> simp_all [skipBlanks]

/-- Four hexadecimal digits. -/
def hexUnit : List Char → Option (Nat × List Char)
  | a :: b :: c :: d :: rest => do
    some ((((← hexValue? a) * 16 + (← hexValue? b)) * 16 + (← hexValue? c)) * 16 + (← hexValue? d), rest)
  | _ => none

/-- The character after `\u`: one unit, or a pair of surrogates. -/
def unicodeEscape (s : List Char) : Option (Char × List Char) := do
  let (unit, rest) ← hexUnit s
  if 0xDC00 ≤ unit && unit ≤ 0xDFFF then none
  else if 0xD800 ≤ unit && unit ≤ 0xDBFF then
    match rest with
    | '\\' :: 'u' :: rest => do
      let (low, rest) ← hexUnit rest
      if 0xDC00 ≤ low && low ≤ 0xDFFF then
        some (Char.ofNat (0x10000 + (unit - 0xD800) * 0x400 + (low - 0xDC00)), rest)
      else none
    | _ => none
  else some (Char.ofNat unit, rest)

/-- The character that a one-letter escape stands for. -/
def simpleEscape : Char → Option Char
  | '"' => some '"'
  | '\\' => some '\\'
  | '/' => some '/'
  | 'b' => some '\x08'
  | 'f' => some '\x0c'
  | 'n' => some '\n'
  | 'r' => some '\r'
  | 't' => some '\t'
  | _ => none

/-- The rest of a string after its opening quote; `read` holds what came before, reversed. -/
def stringBody : Nat → List Char → List Char → Option (String × List Char)
  | 0, _, _ => none
  | fuel + 1, read, s =>
    match s with
    | [] => none
    | '"' :: rest => some (String.ofList read.reverse, rest)
    | '\\' :: 'u' :: rest => do
      let (c, rest) ← unicodeEscape rest
      stringBody fuel (c :: read) rest
    | '\\' :: c :: rest => do
      stringBody fuel ((← simpleEscape c) :: read) rest
    | c :: rest => if c.toNat < 0x20 then none else stringBody fuel (c :: read) rest

mutual

/-- One value at the start of a text; `depth` bounds the arrays and objects that may still be
opened, and `fuel` the length of the text. -/
def value : Nat → Nat → List Char → Option (Json × List Char)
  | 0, _, _ => none
  | fuel + 1, depth, s =>
    match skipBlanks s with
    | 'n' :: 'u' :: 'l' :: 'l' :: rest => some (.null, rest)
    | 't' :: 'r' :: 'u' :: 'e' :: rest => some (.bool true, rest)
    | 'f' :: 'a' :: 'l' :: 's' :: 'e' :: rest => some (.bool false, rest)
    | '"' :: rest => do
      let (text, rest) ← stringBody (rest.length + 1) [] rest
      some (.string text, rest)
    | '[' :: rest =>
      if depth ≤ 1 then none
      else
        match skipBlanks rest with
        | ']' :: rest => some (.array [], rest)
        | rest => do
          let (items, rest) ← items fuel (depth - 1) rest
          some (.array items, rest)
    | '\x7b' :: rest =>
      if depth ≤ 1 then none
      else
        match skipBlanks rest with
        | '\x7d' :: rest => some (.object [], rest)
        | rest => do
          let (fields, rest) ← fields fuel (depth - 1) rest
          some (.object fields, rest)
    | rest => do
      let (n, rest) ← Numeral.read rest
      some (.number n, rest)

/-- The items of an array up to its closing bracket. -/
def items : Nat → Nat → List Char → Option (List Json × List Char)
  | 0, _, _ => none
  | fuel + 1, depth, s => do
    let (item, rest) ← value fuel depth s
    match skipBlanks rest with
    | ',' :: rest => do
      let (more, rest) ← items fuel depth rest
      some (item :: more, rest)
    | ']' :: rest => some ([item], rest)
    | _ => none

/-- The entries of an object up to its closing brace. -/
def fields : Nat → Nat → List Char → Option (List (String × Json) × List Char)
  | 0, _, _ => none
  | fuel + 1, depth, s => do
    match skipBlanks s with
    | '"' :: rest => do
      let (key, rest) ← stringBody (rest.length + 1) [] rest
      match skipBlanks rest with
      | ':' :: rest => do
        let (item, rest) ← value fuel depth rest
        match skipBlanks rest with
        | ',' :: rest => do
          let (more, rest) ← fields fuel depth rest
          some ((key, item) :: more, rest)
        | '\x7d' :: rest => some ([(key, item)], rest)
        | _ => none
      | _ => none
    | _ => none

end

end Reader

/-- What a message says about a text that is not the JSON it should be. -/
def malformed : String := "<json error>"

/-- A whole text as a value in which objects keep every entry as written, repeated keys included. -/
def readEntries? (text : String) : Option Json :=
  let s := text.toList
  match Reader.value (2 * s.length + 2) 128 s with
  | some (v, rest) => if (Reader.skipBlanks rest).isEmpty then some v else none
  | none => none

mutual

/-- The value in which a repeated key keeps its first place and its last value, at every depth. -/
def lastWins : Json → Json
  | .array items => .array (lastWinsItems items)
  | .object fields => .object (Keyed.ofEntries (lastWinsFields fields))
  | v => v

/-- The items with repeated keys merged inside each. -/
def lastWinsItems : List Json → List Json
  | [] => []
  | x :: xs => lastWins x :: lastWinsItems xs

/-- The entries with repeated keys merged inside each value. -/
def lastWinsFields : List (String × Json) → List (String × Json)
  | [] => []
  | (key, x) :: xs => (key, lastWins x) :: lastWinsFields xs

end

/-- A whole text as a value. -/
def read? (text : String) : Option Json := (readEntries? text).map lastWins

end DataAccess.Json
