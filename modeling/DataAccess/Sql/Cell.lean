import DataAccess.Calendar.Timestamp
import DataAccess.Json.Printer
import DataAccess.Number.FixedDecimal
import DataAccess.Sql.Bound
import DataAccess.Text.Hex
/-
**Cells of a result.**  Backends transmit each value of a row in the form of its column's type: dates
as counts of days or as their numbers, exact numerals as text, numbers of single precision rounded.
A cell reads as a JSON value; a value that cannot be represented reads as null.

Main definitions:

* `Cell.float`, `Cell.numeral`, `Cell.identifier` — the forms that both drivers share;
* `Cell.instantOfMicros`, `Cell.dateOfDays`, `Cell.instantOfParts` — dates and times;
* `SqlDriver.readCell` — a cell of a column of some type;
* `SqlDriver.readRow` — the record of a row.

Main results:

* `SqlDriver.readCell_null` — null reads as null, whatever the type.
-/

set_option autoImplicit false

namespace DataAccess

namespace Cell

/-- A value or null. -/
def orNull (v : Option Json) : Json := v.getD .null

/-- An integer in a range. -/
def integer (least greatest : Int) : Json → Option Json
  | .number (.integer i h) =>
    if least ≤ i ∧ i ≤ greatest then some (.number (.integer i h)) else none
  | _ => none

/-- A signed word of so many bits. -/
def signed (bits : Nat) : Json → Option Json := integer (-2 ^ (bits - 1)) (2 ^ (bits - 1) - 1)

/-- A binary64 number; texts for what is not finite have no value. -/
def double (v : Json) : Option Binary64 := v.asNumber?.map Number.toBinary64

/-- A number as a value. -/
def float (x : Binary64) : Json := .number (.float x)

/-- A truth value, also as a number. -/
def truth : Json → Option Json
  | .bool b => some (.bool b)
  | v => v.asSigned?.map fun i => .bool (i ≠ 0)

/-- An exact numeral: an integer if it has no places and fits a signed word.  One driver transmits
a zero without its places. -/
def numeral (driver : SqlDriver) (v : Json) : Option Json := do
  let d ← FixedDecimal.ofText? v.bareText.toList
  let places := if driver = .postgres ∧ d.coefficient = 0 then 0 else d.places
  let i : Int := if d.negative then -(d.coefficient : Int) else d.coefficient
  if places = 0 ∧ -2 ^ 63 ≤ i ∧ i < 2 ^ 63 then some (.int i) else float <$> d.toBinary64

/-- A unique identifier in lower case, its digits in groups of 8, 4, 4, 4 and 12. -/
def identifier (v : Json) : Option Json := do
  let digits ← Text.lowerHex? ((← v.asString?).toList.filter (· != '-'))
  let group (start size : Nat) : List Char := (digits.drop start).take size
  if digits.length ≠ 32 then none
  else
    some (.string (String.ofList
      (group 0 8 ++ '-' :: group 8 4 ++ '-' :: group 12 4 ++ '-' :: group 16 4 ++ '-' ::
        group 20 12)))

/-- A date in its written form. -/
def date (d : Date) : Json := .string (String.ofList (Timestamp.dateText d))

/-- An instant in its written form, if its year can be represented. -/
def instant (t : Timestamp) : Option Json := if t.inRange then some (.string t.iso) else none

/-- The instant of a count of microseconds since 1970-01-01T00:00:00Z. -/
def instantOfMicros (v : Json) : Option Json := do
  let n ← v.asSigned?
  instant ⟨n / 1000000, (n % 1000000).toNat * 1000⟩

/-- The date of a count of days since 1970-01-01. -/
def dateOfDays (v : Json) : Option Json := do
  let d := Date.ofDayNumber ((← v.asSigned?) + Date.epoch)
  if d.isValid then some (date d) else none

/-- The numbers of a date and perhaps a time of day, those left out being zero. -/
def parts (v : Json) : Option (Date × Nat × Nat × Nat × Nat) := do
  let numbers ← (← v.asList?).mapM Json.asUnsigned?
  let part (i : Nat) : Nat := (numbers[i]?).getD 0
  let d ← Date.of? (part 0) (part 1) (part 2)
  if part 3 < 24 ∧ part 4 < 60 ∧ part 5 < 60 ∧ part 6 < 1000000 then
    some (d, part 3, part 4, part 5, part 6)
  else none

/-- The date out of its numbers. -/
def dateOfParts (v : Json) : Option Json := do
  let (d, _) ← parts v
  some (date d)

/-- The instant out of its numbers. -/
def instantOfParts (v : Json) : Option Json := do
  let (d, hour, minute, second, micros) ← parts v
  instant (Timestamp.ofDay d.dayNumber (hour * 3600 + minute * 60 + second : Nat) (micros * 1000))

/-- The text of a value of any other type. -/
def text (v : Json) : Option Json := some (.string v.bareText)

end Cell

namespace SqlDriver

/-- How a value is read that is there. -/
def reader (driver : SqlDriver) (type : String) : Json → Option Json :=
  match driver with
  | .postgres =>
    match type with
    | "INT2" => Cell.signed 16
    | "INT4" => Cell.signed 32
    | "INT8" => Cell.signed 64
    | "FLOAT4" => fun v => Cell.float <$> (Cell.double v).bind Binary64.toSingle
    | "FLOAT8" => fun v => Cell.float <$> Cell.double v
    | "NUMERIC" => Cell.numeral driver
    | "BOOL" => Cell.truth
    | "JSON" | "JSONB" => some
    | "UUID" => Cell.identifier
    | "TIMESTAMPTZ" | "TIMESTAMP" => Cell.instantOfMicros
    | "DATE" => Cell.dateOfDays
    | _ => Cell.text
  | .mysql =>
    if type = "BOOLEAN" then Cell.truth
    else if "UNSIGNED".toList.isSuffixOf type.toList then Cell.integer 0 (2 ^ 64 - 1)
    else
      match type with
      | "TINYINT" | "SMALLINT" | "MEDIUMINT" | "INT" | "BIGINT" => Cell.signed 64
      | "FLOAT" => fun v => Cell.float <$> (Cell.double v).bind Binary64.toSingle
      | "DOUBLE" => fun v => Cell.float <$> Cell.double v
      | "DECIMAL" => Cell.numeral driver
      | "JSON" => some
      | "TIMESTAMP" | "DATETIME" => Cell.instantOfParts
      | "DATE" => Cell.dateOfParts
      | _ => Cell.text

/-- A cell of a column whose type has this name, in any letter case. -/
def readCell (driver : SqlDriver) (type : String) : Json → Json
  | .null => .null
  | v => Cell.orNull (driver.reader (type.map Char.toUpper) v)

@[simp] theorem readCell_null (driver : SqlDriver) (type : String) :
    driver.readCell type .null = .null := rfl

/-- The record of a row under columns with names and types; of two columns with one name the last
counts. -/
def readRow (driver : SqlDriver) (columns : List (String × String)) (cells : List Json) : Record :=
  Keyed.ofEntries ((columns.zip cells).map fun ((name, type), v) => (name, driver.readCell type v))

end SqlDriver

end DataAccess
