import DataAccess.Calendar.Timestamp
import DataAccess.Text.Blank
import DataAccess.Text.Digits
/-
**Notations of instants.**  Texts are read as an instant in one of three ways, tried in order: the
strict internet notation with an offset; a naive date and time, taken as UTC, in which every number
may have fewer digits and blanks in front; and a bare date, which means its midnight.

Main definitions:

* `Notation.Fields` — the numbers of a written date and time;
* `Notation.offsetForm`, `Notation.naiveForm`, `Notation.dateForm` — the three readings;
* `Timestamp.ofText?` — the instant that a text denotes.
-/

set_option autoImplicit false

namespace DataAccess

namespace Notation

open Text (isDigit digits decimalValue)

/-- A number with bounds on its digits. -/
def number (least : Nat) (most : Option Nat) (s : List Char) : Option (Nat × List Char) := do
  let (read, rest) ← digits least most s
  some (decimalValue read, rest)

/-- One character out of a list. -/
def oneOf (allowed : List Char) : List Char → Option (List Char)
  | c :: rest => if allowed.contains c then some rest else none
  | [] => none

/-- The numbers of a written date and time, each within its own range. -/
structure Fields where
  year : Int
  month : Nat
  day : Nat
  hour : Nat
  minute : Nat
  /-- The second; 60 names a leap second. -/
  second : Nat
  nanos : Nat
deriving DecidableEq, Repr

/-- The instant of a written date and time that is `offset` seconds ahead of UTC. -/
def Fields.instant? (f : Fields) (offset : Int) : Option Timestamp := do
  let date ← Date.of? f.year f.month f.day
  if f.hour < 24 && f.minute < 60 && f.second ≤ 60 then
    let leap := if f.second = 60 then 1 else 0
    let second : Int := f.hour * 3600 + f.minute * 60 + (f.second - leap : Nat) - offset
    some (Timestamp.ofDay date.dayNumber second (f.nanos + leap * 1000000000))
  else none

/-- A fraction of a second after its point: at least one digit, those beyond nine dropped. -/
def fraction (s : List Char) : Option (Nat × List Char) := do
  let (read, _) ← digits 1 (some 9) s
  some (decimalValue read * 10 ^ (9 - read.length), s.dropWhile isDigit)

/-- A fraction of a second, if a point follows. -/
def optionalFraction : List Char → Option (Nat × List Char)
  | '.' :: rest => fraction rest
  | rest => some (0, rest)

/-! ### The notation with an offset -/

/-- Seconds ahead of UTC: `Z`, or a sign with hours and minutes.  The sign may be U+2212. -/
def offset (s : List Char) : Option (Int × List Char) :=
  match s with
  | 'Z' :: rest | 'z' :: rest => some (0, rest)
  | '+' :: rest => hoursMinutes 1 rest
  | '-' :: rest | '\u2212' :: rest => hoursMinutes (-1) rest
  | _ => none
where
  /-- Two digits, a colon, two digits. -/
  hoursMinutes (sign : Int) (s : List Char) : Option (Int × List Char) := do
    let (hours, s) ← number 2 (some 2) s
    let s ← oneOf [':'] s
    let (minutes, s) ← number 2 (some 2) s
    if hours < 24 && minutes < 60 then some (sign * (hours * 3600 + minutes * 60 : Nat), s) else none

/-- `YYYY-MM-DD`, one of `T`, `t` or a blank, `HH:MM:SS`, an optional fraction and an offset. -/
def offsetForm (s : List Char) : Option Timestamp := do
  let (year, s) ← number 4 (some 4) s
  let s ← oneOf ['-'] s
  let (month, s) ← number 2 (some 2) s
  let s ← oneOf ['-'] s
  let (day, s) ← number 2 (some 2) s
  let s ← oneOf ['T', 't', ' '] s
  let (hour, s) ← number 2 (some 2) s
  let s ← oneOf [':'] s
  let (minute, s) ← number 2 (some 2) s
  let s ← oneOf [':'] s
  let (second, s) ← number 2 (some 2) s
  let (nanos, s) ← optionalFraction s
  let (ahead, s) ← offset s
  if s.isEmpty then Fields.instant? ⟨year, month, day, hour, minute, second, nanos⟩ ahead else none

/-! ### Naive notations -/

/-- A number of one or two digits, after any blanks. -/
def looseNumber (s : List Char) : Option (Nat × List Char) :=
  number 1 (some 2) (Text.trimStart s)

/-- A year after any blanks: up to four digits, or a sign and any number of digits. -/
def looseYear (s : List Char) : Option (Int × List Char) := do
  match Text.trimStart s with
  | '-' :: rest => do
    let (n, rest) ← number 1 none rest
    some (-(n : Int), rest)
  | '+' :: rest => do
    let (n, rest) ← number 1 none rest
    some ((n : Int), rest)
  | rest => do
    let (n, rest) ← number 1 (some 4) rest
    some ((n : Int), rest)

/-- Year, month and day with hyphens between them. -/
def looseDate (s : List Char) : Option ((Int × Nat × Nat) × List Char) := do
  let (year, s) ← looseYear s
  let s ← oneOf ['-'] s
  let (month, s) ← looseNumber s
  let s ← oneOf ['-'] s
  let (day, s) ← looseNumber s
  some ((year, month, day), s)

/-- A naive date and time; the two are separated by a `T` or by any blanks. -/
def naiveForm (s : List Char) : Option Timestamp := do
  let ((year, month, day), s) ← looseDate s
  let s := match s with
    | 'T' :: rest => rest
    | rest => rest
  let (hour, s) ← looseNumber s
  let s ← oneOf [':'] s
  let (minute, s) ← looseNumber s
  let s ← oneOf [':'] s
  let (second, s) ← looseNumber s
  let (nanos, s) ← optionalFraction s
  if s.isEmpty then Fields.instant? ⟨year, month, day, hour, minute, second, nanos⟩ 0 else none

/-- A bare date, which means its midnight. -/
def dateForm (s : List Char) : Option Timestamp := do
  let ((year, month, day), s) ← looseDate s
  if s.isEmpty then Fields.instant? ⟨year, month, day, 0, 0, 0, 0⟩ 0 else none

end Notation

/-- The instant that a text denotes; naive texts are taken as UTC. -/
def Timestamp.ofText? (s : List Char) : Option Timestamp :=
  Notation.offsetForm s <|> Notation.naiveForm s <|> Notation.dateForm s

end DataAccess
