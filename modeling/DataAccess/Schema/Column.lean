import DataAccess.Error
/-
**Columns.**  Every backend's description of a column is normalised to one of seven types and a few
flags.  `required` and `nullable` are independent: a nullable column may still have to be present
on insert when it has no default.

Main definitions:

* `ColumnType` — number, string, boolean, date, json, enum, unknown;
* `Column` — a field with its type and flags;
* `Column.plain`, `Column.serverKey` — an optional column and a generated key;
* `Column.isServerGenerated` — the backend makes the value on insert.

Main results:

* `ColumnType.ofName?_name` — every type is found under its name.
-/

set_option autoImplicit false

namespace DataAccess

/-- The type of a column, independent of the backend; `unknown` is never used to create tables. -/
inductive ColumnType
  | number
  | string
  | boolean
  | date
  | json
  | enum
  | unknown
deriving DecidableEq, Repr

namespace ColumnType

/-- The types under their names. -/
def names : List (String × ColumnType) :=
  [("number", .number), ("string", .string), ("boolean", .boolean), ("date", .date),
   ("json", .json), ("enum", .enum), ("unknown", .unknown)]

/-- The name of a type. -/
def name : ColumnType → String
  | .number => "number"
  | .string => "string"
  | .boolean => "boolean"
  | .date => "date"
  | .json => "json"
  | .enum => "enum"
  | .unknown => "unknown"

theorem ofName?_name (t : ColumnType) : names.lookup t.name = some t := by
  cases t <;> decide

end ColumnType

/-- A column of a table. -/
structure Column where
  field : String
  type : ColumnType
  nullable : Bool
  required : Bool
  primaryKey : Bool
  uniqueKey : Bool
  foreignKey : Bool
  /-- The key is generated by the server: a sequence, an identity, an automatic increment. -/
  autoIncrement : Bool
  default : Option String
  enumValues : Option (List String)
  /-- The length that a string column is created with. -/
  maxLength : Option Nat
deriving DecidableEq, Repr

namespace Column

/-- An optional, nullable column. -/
def plain (field : String) (type : ColumnType) : Column :=
  { field, type, nullable := true, required := false, primaryKey := false, uniqueKey := false
    foreignKey := false, autoIncrement := false, default := none, enumValues := none
    maxLength := none }

/-- A numeric primary key that the server generates. -/
def serverKey (field : String) : Column :=
  { plain field .number with
    nullable := false, required := true, primaryKey := true, uniqueKey := true
    autoIncrement := true }

/-- The column as required and not nullable. -/
def asRequired (c : Column) : Column := { c with required := true, nullable := false }

/-- The column as unique. -/
def asUnique (c : Column) : Column := { c with uniqueKey := true }

/-- The column as a foreign key. -/
def asForeign (c : Column) : Column := { c with foreignKey := true }

/-- Whether the backend generates the value on insert. -/
def isServerGenerated (c : Column) : Bool := c.primaryKey && c.autoIncrement

@[simp] theorem isServerGenerated_serverKey (field : String) :
    (serverKey field).isServerGenerated = true := rfl

@[simp] theorem isServerGenerated_plain (field : String) (type : ColumnType) :
    (plain field type).isServerGenerated = false := rfl

end Column

end DataAccess
