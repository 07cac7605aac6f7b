import DataAccess.Json.Basic
/-
**Bound values.**  A value that a statement carries apart from its text is bound by its kind, and the
driver of a backend announces a type for each kind.  Integers are bound as signed 64-bit words; an
integer beyond those is bound as the nearest binary64 number.

Main definitions:

* `SqlDriver` — the drivers of relational backends;
* `BoundValue`, `BoundValue.ofJson` — a value by the kind that it is bound as;
* `BoundValue.typeName`, `BoundValue.sent` — the announced type and the value that is sent.

Main results:

* `BoundValue.ofJson_integer` — a signed 64-bit integer is bound as itself.
-/

set_option autoImplicit false

namespace DataAccess

/-- The drivers of relational backends. -/
inductive SqlDriver
  | postgres
  | mysql
deriving DecidableEq, Repr

/-- A value by the kind that it is bound as. -/
inductive BoundValue
  | null
  | bool (value : Bool)
  | integer (value : Int)
  | float (value : Binary64)
  | text (value : String)
  | json (value : Json)
deriving Repr

namespace BoundValue

/-- The kind of a number: an integer if it is one that fits a signed word. -/
def ofNumber (n : Number) : BoundValue :=
  match n.asSigned? with
  | some i => .integer i
  | none => .float n.toBinary64

/-- The kind that a value is bound as. -/
def ofJson : Json → BoundValue
  | .null => .null
  | .bool b => .bool b
  | .number n => ofNumber n
  | .string s => .text s
  | v => .json v

theorem ofJson_integer {i : Int} (h : -2 ^ 63 ≤ i ∧ i < 2 ^ 63) :
    ofJson (.int i) = .integer i := by
  have inRange : -2 ^ 63 ≤ i ∧ i < 2 ^ 64 := by omega
  have fits : i < 9223372036854775808 := by omega
  simp [ofJson, ofNumber, Json.int, Number.ofInt_of_inRange inRange, Number.asSigned?, fits]

/-- The type that a driver announces; what is not there counts as text. -/
def typeName : SqlDriver → BoundValue → String
  | _, .null | _, .text _ => "TEXT"
  | .postgres, .bool _ => "BOOL"
  | .postgres, .integer _ => "INT8"
  | .postgres, .float _ => "FLOAT8"
  | .postgres, .json _ => "JSONB"
  | .mysql, .bool _ => "TINYINT"
  | .mysql, .integer _ => "BIGINT"
  | .mysql, .float _ => "DOUBLE"
  | .mysql, .json _ => "JSON"

/-- The value that a driver sends. -/
def sent : SqlDriver → BoundValue → Json
  | _, .null => .null
  | .postgres, .bool b => .bool b
  | .mysql, .bool b => .nat b.toNat
  | _, .integer i => .int i
  | _, .float x => .number (.float x)
  | _, .text s => .string s
  | _, .json v => v

end BoundValue

end DataAccess
