import DataAccess.Schema.Column
import DataAccess.Json.Printer
import DataAccess.Calendar.Notation
import DataAccess.Number.SignedDecimal
/-
**Coercion between callers and backends.**  On the way in, booleans take the form in which the
backend stores them and dates the native form with whole seconds; on the way out, numbers are cast,
dates are written in ISO form and booleans are normalised.  `null` passes in both directions.

Main definitions:

* `BooleanStorage` — how a backend stores booleans;
* `parseSigned?`, `parseFloat?` — numbers in texts of callers;
* `coerceNumber`, `coerceBoolean`, `parseTimestamp` — the three readings of a value;
* `coerceRead`, `coerceWrite` — the coercion by column type.

Main results:

* `coerceWrite_null`, `coerceRead_null` — null bypasses coercion;
* `coerceWrite_untyped` — strings, json, enums and unknown columns are written as given.
-/

set_option autoImplicit false

namespace DataAccess

/-- How a backend stores booleans. -/
inductive BooleanStorage
  /-- As `true` and `false`. -/
  | native
  /-- As `1` and `0`. -/
  | integer
deriving DecidableEq, Repr

/-- The stored form of a boolean. -/
def BooleanStorage.encode : BooleanStorage → Bool → Json
  | .native, b => .bool b
  | .integer, true => .int 1
  | .integer, false => .int 0

/-! ### Numbers in texts -/

/-- A signed 64-bit integer: an optional sign and at least one digit, nothing else. -/
def parseSigned? (s : List Char) : Option Int :=
  (SignedDecimal.readInt? s).bind fun i => if -2 ^ 63 ≤ i ∧ i < 2 ^ 63 then some i else none

/-- An unsigned 64-bit integer: an optional plus sign and at least one digit, nothing else. -/
def parseUnsigned? (s : List Char) : Option Nat :=
  let body := match s with
    | '+' :: rest => rest
    | rest => rest
  if body.isEmpty || !body.all Text.isDigit then none
  else
    let n := Text.decimalValue body
    if n < 2 ^ 64 then some n else none

/-- The number nearest to a decimal text, if it is finite.  Digits may be missing on one side of the
point, but not on both. -/
def parseFloat? (s : List Char) : Option Binary64 :=
  (SignedDecimal.read? s).bind SignedDecimal.toBinary64

/-! ### Readings of a value -/

/-- The numeric cast: numeric texts and booleans convert, an integer before a binary64 number. -/
def coerceNumber : Json → Option Json
  | .number n => some (.number n)
  | .bool b => some (.int (if b then 1 else 0))
  | .string s =>
    let s := Text.trim s.toList
    match parseSigned? s with
    | some i => some (.int i)
    | none => (parseFloat? s).map fun x => .number (.float x)
  | _ => none

/-- The texts that mean true and false, in lower case. -/
def booleanTexts : List (String × Bool) :=
  [("true", true), ("t", true), ("1", true), ("yes", true),
   ("false", false), ("f", false), ("0", false), ("no", false), ("", false)]

/-- The truth value of the forms that backends return; ASCII case and surrounding blanks do not
matter. -/
def coerceBoolean : Json → Option Bool
  | .bool b => some b
  | .number n => some (!n.toBinary64.isZero)
  | .string s => booleanTexts.lookup (String.ofList ((Text.trim s.toList).map Char.toLower))
  | _ => none

/-- The instant that a value denotes; integers count milliseconds. -/
def parseTimestamp : Json → Option Timestamp
  | .string s => Timestamp.ofText? (Text.trim s.toList)
  | .number n => n.asSigned?.bind Timestamp.ofMillis?
  | _ => none

/-! ### Coercion by column type -/

/-- The failure of reading a value as a column's type. -/
def unreadable (v : Json) (noun : String) : DataError :=
  .validation s!"Error piping response - {v.text} is not a {noun}"

/-- A backend's value in the form that callers receive. -/
def coerceRead (type : ColumnType) (v : Json) : Outcome Json :=
  if v.isNull then .ok v
  else
    match type with
    | .number =>
      match coerceNumber v with
      | some n => .ok n
      | none => .error (unreadable v "number")
    | .boolean =>
      match coerceBoolean v with
      | some b => .ok (.bool b)
      | none => .error (unreadable v "boolean")
    | .date =>
      match parseTimestamp v with
      | some t => .ok (.string t.iso)
      | none => .error (unreadable v "date")
    | _ => .ok v

/-- A caller's value in the form that the backend receives; a value that does not fit the type is
left for the backend to refuse. -/
def coerceWrite (type : ColumnType) (v : Json) (booleans : BooleanStorage) : Json :=
  if v.isNull then v
  else
    match type with
    | .boolean => ((coerceBoolean v).map booleans.encode).getD v
    | .date => ((parseTimestamp v).map fun t => .string t.native).getD v
    | .number => (coerceNumber v).getD v
    | _ => v

@[simp] theorem coerceRead_null (type : ColumnType) : coerceRead type .null = .ok .null := rfl

@[simp] theorem coerceWrite_null (type : ColumnType) (booleans : BooleanStorage) :
    coerceWrite type .null booleans = .null := rfl

theorem coerceWrite_untyped {type : ColumnType} (number : type ≠ .number)
    (boolean : type ≠ .boolean) (date : type ≠ .date) (v : Json) (booleans : BooleanStorage) :
    coerceWrite type v booleans = v := by
  unfold coerceWrite
  split
  · rfl
  · split <;> first | contradiction | rfl

end DataAccess
