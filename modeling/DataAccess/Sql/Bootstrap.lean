import DataAccess.Sql.NativeType
import DataAccess.Schema.Basic
/-
**Creating tables.**  A table is created from its schema in one go: first the types that enum
columns need, then the table, then one foreign key per relation that the table owns.

Main definitions:

* `Dialect.columnDefinition` — the definition of one column;
* `Dialect.createTable` — the statements in order.

Main results:

* `Dialect.createTable_structure` — only a schema that makes sense is created.
-/

set_option autoImplicit false

namespace DataAccess.Dialect

/-- The definition of a column: its name, type and constraints. -/
def columnDefinition (d : Dialect) (table : String) (c : Column) : Outcome String := do
  let type ← d.nativeType table c
  let identity := if c.isServerGenerated then [d.identity] else []
  let constraints :=
    if c.primaryKey then ["PRIMARY KEY"]
    else (if c.nullable then [] else ["NOT NULL"]) ++ if c.uniqueKey then ["UNIQUE"] else []
  let default := (c.default.map fun e => "DEFAULT " ++ e).toList
  return Text.join " "
    ([d.quote c.field, type] ++ identity ++ constraints ++ default ++ (d.enumCheck c).toList)

/-- The foreign key of a relation that the table owns. -/
def foreignKey (d : Dialect) (table : String) (r : Relation) : String :=
  "ALTER TABLE " ++ d.quote table ++ " ADD FOREIGN KEY (" ++ d.quote r.ownColumn ++
    ") REFERENCES " ++ d.quote r.table ++ " (" ++ d.quote r.column ++ ")"

/-- The statements that create a table. -/
def createTable (d : Dialect) (s : Schema) : Outcome (List String) := do
  s.validateStructure
  let definitions ← s.columns.mapM (d.columnDefinition s.table)
  let types := s.columns.filterMap (d.enumType s.table)
  let table := "CREATE TABLE " ++ d.quote s.table ++ " (" ++ Text.join ", " definitions ++ ")"
  let owned := s.relations.filter fun r => r.ownTable = s.table
  return types ++ [table] ++ owned.map (d.foreignKey s.table)

theorem createTable_structure {d : Dialect} {s : Schema} {statements : List String}
    (h : d.createTable s = .ok statements) : s.validateStructure = .ok () := by
  cases hs : s.validateStructure with
  | ok u => rfl
  | error e => simp [createTable, hs, bind, Except.bind] at h

end DataAccess.Dialect
