import DataAccess.Sql.Dialect
import DataAccess.Schema.Column
import DataAccess.Text.Split
/-
**Native column types.**  Each dialect names its column types in its own way.  A native name is
mapped to one of the seven types when a table is described, and back when a table is created.

Main definitions:

* `baseType` — a native name without its length;
* `Dialect.columnType` — the type of a native name;
* `literal`, `enumLiterals` — texts as SQL literals;
* `Dialect.nativeType` — the native type of a new column;
* `Dialect.enumType`, `Dialect.enumCheck` — what an enum column needs beside its type.

Main results:

* `Dialect.nativeType_unknown` — a column of unknown type cannot be created.
-/

set_option autoImplicit false

namespace DataAccess

/-- A text in ASCII lower case. -/
def lowercase (s : String) : String := String.ofList (s.toList.map Char.toLower)

/-- A native name without its length or precision, trimmed, in lower case. -/
def baseType (native : String) : String :=
  lowercase (Text.trimmed (String.ofList (native.toList.takeWhile (· ≠ '('))))

namespace Dialect

/-- The native names of each type in a dialect. -/
def typeNames : Dialect → List (ColumnType × List String)
  | .postgres =>
    [(.number, ["smallint", "integer", "int", "int2", "int4", "int8", "bigint", "serial",
        "bigserial", "smallserial", "numeric", "decimal", "real", "float4", "float8",
        "double precision", "money"]),
     (.string, ["character varying", "varchar", "character", "char", "bpchar", "text", "uuid",
        "citext", "name", "inet"]),
     (.boolean, ["boolean", "bool"]),
     (.date, ["date", "timestamp", "timestamp without time zone", "timestamp with time zone",
        "timestamptz", "time", "time without time zone"]),
     (.json, ["json", "jsonb"]),
     (.enum, ["user-defined"])]
  | .mysql =>
    [(.number, ["tinyint", "smallint", "mediumint", "int", "integer", "bigint", "decimal",
        "numeric", "float", "double", "real"]),
     (.string, ["char", "varchar", "tinytext", "text", "mediumtext", "longtext"]),
     (.boolean, ["bool", "boolean"]),
     (.date, ["date", "datetime", "timestamp", "time"]),
     (.json, ["json"]),
     (.enum, ["enum"])]
  | .mssql =>
    [(.number, ["tinyint", "smallint", "int", "bigint", "decimal", "numeric", "float", "real",
        "money", "smallmoney"]),
     (.string, ["char", "varchar", "nchar", "nvarchar", "text", "ntext", "uniqueidentifier"]),
     (.boolean, ["bit"]),
     (.date, ["date", "datetime", "datetime2", "smalldatetime", "datetimeoffset", "time"])]

/-- Whether a native name is a one-bit type that stands for a boolean. -/
def isFlag (d : Dialect) (native : String) : Bool :=
  match d with
  | .mysql =>
    "tinyint(1)".toList.isPrefixOf (lowercase native).toList || lowercase native == "bit(1)"
  | .postgres | .mssql => false

/-- The type of a native name. -/
def columnType (d : Dialect) (native : String) : ColumnType :=
  if d.isFlag native then .boolean
  else
    match d.typeNames.find? fun entry => entry.2.contains (baseType native) with
    | some entry => entry.1
    | none => .unknown

end Dialect

/-! ### Types of new columns -/

/-- A text as an SQL literal. -/
def literal (value : String) : String :=
  String.ofList (Text.enclose '\'' '\'' value.toList)

/-- The values of an enum column as literals. -/
def enumLiterals (c : Column) : Outcome String :=
  let values := c.enumValues.getD []
  if values.isEmpty then .error (.validation s!"Enum column {c.field} declares no values")
  else .ok (Text.join ", " (values.map literal))

namespace Dialect

/-- The name of the type that holds the values of an enum column. -/
def enumTypeName (table : String) (c : Column) : String := s!"{table}_{c.field}_enum"

/-- The native type of a new column. -/
def nativeType (d : Dialect) (table : String) (c : Column) : Outcome String :=
  let sized (name : String) : String := name ++ "(" ++ toString (c.maxLength.getD 255) ++ ")"
  match c.type, d with
  | .number, .postgres => .ok (if c.autoIncrement then "INTEGER" else "NUMERIC")
  | .number, .mysql => .ok (if c.autoIncrement then "INT" else "DOUBLE")
  | .number, .mssql => .ok (if c.autoIncrement then "INT" else "FLOAT")
  | .string, .postgres | .string, .mysql => .ok (sized "VARCHAR")
  | .string, .mssql | .enum, .mssql => .ok (sized "NVARCHAR")
  | .boolean, .postgres => .ok "BOOLEAN"
  | .boolean, .mysql => .ok "TINYINT(1)"
  | .boolean, .mssql => .ok "BIT"
  | .date, .postgres => .ok "TIMESTAMP"
  | .date, .mysql => .ok "DATETIME"
  | .date, .mssql => .ok "DATETIME2"
  | .json, .postgres => .ok "JSONB"
  | .json, .mysql => .ok "JSON"
  | .json, .mssql => .ok "NVARCHAR(MAX)"
  | .enum, .postgres => .ok (d.quote (enumTypeName table c))
  | .enum, .mysql => (enumLiterals c).map fun values => s!"ENUM({values})"
  | .unknown, _ => .error (.validation s!"Cannot create column {c.field} with unknown type")

theorem nativeType_unknown {c : Column} (h : c.type = .unknown) (d : Dialect) (table : String) :
    d.nativeType table c =
      .error (.validation s!"Cannot create column {c.field} with unknown type") := by
  cases d <;> simp [nativeType, h]

/-- The statement that creates the type of an enum column, where the dialect needs one. -/
def enumType (d : Dialect) (table : String) (c : Column) : Option String :=
  match d, c.type with
  | .postgres, .enum =>
    match enumLiterals c with
    | .ok values =>
      some ("CREATE TYPE " ++ d.quote (enumTypeName table c) ++ s!" AS ENUM ({values})")
    | .error _ => none
  | _, _ => none

/-- The constraint that restricts an enum column to its values, where the dialect needs one. -/
def enumCheck (d : Dialect) (c : Column) : Option String :=
  match d, c.type with
  | .mssql, .enum =>
    match enumLiterals c with
    | .ok values => some ("CHECK (" ++ d.quote c.field ++ s!" IN ({values}))")
    | .error _ => none
  | _, _ => none

end Dialect

end DataAccess
