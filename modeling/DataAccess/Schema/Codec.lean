import DataAccess.Schema.Basic
import DataAccess.Json.Decode
/-
**Schemas as JSON.**  Schemas are stored, cached and configured as JSON objects.  Flags of a column
default to false; the default expression, the enum values and the length are left out when unset.

Main definitions:

* `Column.toJson`, `Column.ofJson?` — columns;
* `Relation.toJson`, `Relation.ofJson?` — relations;
* `Schema.toJson`, `Schema.ofJson?` — schemas.

Main results:

* `Relation.ofJson?_toJson` — a written relation reads back as itself.
-/

set_option autoImplicit false

namespace DataAccess

/-- An optional entry of an object. -/
def optionalEntry (name : String) (v : Option Json) : Record :=
  match v with
  | some v => [(name, v)]
  | none => []

/-- A list of strings as a value. -/
def stringsJson (items : List String) : Json := .array (items.map Json.string)

namespace Column

/-- The names of a column's members. -/
def memberNames : List String :=
  ["field", "type", "nullable", "required", "primary_key", "unique_key", "foreign_key",
   "auto_increment", "default", "enum_values", "max_length"]

/-- The serialised form of a column. -/
def toJson (c : Column) : Json :=
  .object <|
    [("field", .string c.field), ("type", .string c.type.name), ("nullable", .bool c.nullable),
     ("required", .bool c.required), ("primary_key", .bool c.primaryKey),
     ("unique_key", .bool c.uniqueKey), ("foreign_key", .bool c.foreignKey),
     ("auto_increment", .bool c.autoIncrement)] ++
    optionalEntry "default" (c.default.map Json.string) ++
    optionalEntry "enum_values" (c.enumValues.map stringsJson) ++
    optionalEntry "max_length" (c.maxLength.map Json.nat)

/-- The column that a value describes. -/
def ofJson? : Decoder Column := fun v => do
  let m ← Members.of? memberNames v
  some
    { field := ← m.required "field" Json.asString?
      type := ← m.required "type" (decodeName ColumnType.names)
      nullable := ← m.defaulted "nullable" Json.asBool? false
      required := ← m.defaulted "required" Json.asBool? false
      primaryKey := ← m.defaulted "primary_key" Json.asBool? false
      uniqueKey := ← m.defaulted "unique_key" Json.asBool? false
      foreignKey := ← m.defaulted "foreign_key" Json.asBool? false
      autoIncrement := ← m.defaulted "auto_increment" Json.asBool? false
      default := ← m.nullable "default" Json.asString?
      enumValues := ← m.nullable "enum_values" (decodeList Json.asString?)
      maxLength := ← m.nullable "max_length" (decodeBelow (2 ^ 32)) }

end Column

namespace Relation

/-- The names of a relation's members. -/
def memberNames : List String := ["table", "column", "org_table", "org_column"]

/-- The serialised form of a relation. -/
def toJson (r : Relation) : Json :=
  .object
    [("table", .string r.table), ("column", .string r.column), ("org_table", .string r.ownTable),
     ("org_column", .string r.ownColumn)]

/-- The relation that a value describes. -/
def ofJson? : Decoder Relation := fun v => do
  let m ← Members.of? memberNames v
  some
    { table := ← m.required "table" Json.asString?
      column := ← m.required "column" Json.asString?
      ownTable := ← m.required "org_table" Json.asString?
      ownColumn := ← m.required "org_column" Json.asString? }

theorem ofJson?_toJson (r : Relation) : ofJson? r.toJson = some r := by
  simp [ofJson?, toJson, Members.of?, memberNames, Members.required, Json.asString?]

end Relation

namespace Schema

/-- The names of a schema's members. -/
def memberNames : List String := ["table", "primary_key", "columns", "relations"]

/-- The serialised form of a schema. -/
def toJson (s : Schema) : Json :=
  .object
    [("table", .string s.table), ("primary_key", .string s.primaryKey),
     ("columns", .array (s.columns.map Column.toJson)),
     ("relations", .array (s.relations.map Relation.toJson))]

/-- The schema that a value describes. -/
def ofJson? : Decoder Schema := fun v => do
  let m ← Members.of? memberNames v
  some <| declared
    (← m.required "table" Json.asString?)
    (← m.defaulted "primary_key" Json.asString? "")
    (← m.required "columns" (decodeList Column.ofJson?))
    (← m.defaulted "relations" (decodeList Relation.ofJson?) [])

end Schema

end DataAccess
