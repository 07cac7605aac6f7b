import DataAccess.Schema.Column
import DataAccess.Schema.Relation
/-
**Schemas.**  A schema describes one table: its columns in order, the relations the table takes part
in, and the name of its primary key, which is the first column flagged as such.

Main definitions:

* `Schema`, `Schema.ofColumns` — a schema and the one built from columns and relations;
* `Schema.column?`, `Schema.hasColumn`, `Schema.columnNames` — the columns by name;
* `Schema.primaryKeyField` — the field of the primary key;
* `Schema.project` — the schema restricted to some fields and the primary key;
* `Schema.validateStructure` — whether the schema itself makes sense.

Main results:

* `Schema.hasColumn_iff` — a column exists exactly when its name is listed;
* `Schema.project_relations` — a projection keeps every relation.
-/

set_option autoImplicit false

namespace DataAccess

/-- The description of a table. -/
structure Schema where
  table : String
  /-- The declared name of the primary key; empty when there is none. -/
  primaryKey : String
  columns : List Column
  relations : List Relation
deriving DecidableEq, Repr

namespace Schema

/-- The field of the first column flagged as primary key. -/
def flaggedKey? (columns : List Column) : Option String :=
  (columns.find? fun c => c.primaryKey).map Column.field

/-- The schema of a table with these columns and relations. -/
def ofColumns (table : String) (columns : List Column) (relations : List Relation) : Schema :=
  ⟨table, (flaggedKey? columns).getD "", columns, relations⟩

/-- The schema that a serialised form declares: a flagged column overrides the declared key. -/
def declared (table primaryKey : String) (columns : List Column) (relations : List Relation) :
    Schema :=
  let s := ofColumns table columns relations
  if s.primaryKey = "" then { s with primaryKey := primaryKey } else s

/-- The relations by the names they lead to. -/
def links (s : Schema) : RelationIndex := RelationIndex.build s.relations

/-- The column with a name. -/
def column? (s : Schema) (field : String) : Option Column :=
  s.columns.find? fun c => c.field = field

/-- Whether a column exists. -/
def hasColumn (s : Schema) (field : String) : Bool := (s.column? field).isSome

/-- The names of the columns in order. -/
def columnNames (s : Schema) : List String := s.columns.map Column.field

theorem hasColumn_iff {s : Schema} {field : String} :
    s.hasColumn field = true ↔ field ∈ s.columnNames := by
  simp [hasColumn, column?, columnNames]

/-- The field of the primary key, or the error that there is none. -/
def primaryKeyField (s : Schema) : Outcome String :=
  match flaggedKey? s.columns with
  | some field => .ok field
  | none => .error (.noPrimaryKey s.table)

/-- The schema restricted to some fields and the primary key columns. -/
def project (s : Schema) (fields : List String) : Schema :=
  { s with columns := s.columns.filter fun c => c.primaryKey || fields.contains c.field }

@[simp] theorem project_relations (s : Schema) (fields : List String) :
    (s.project fields).relations = s.relations := rfl

@[simp] theorem project_primaryKey (s : Schema) (fields : List String) :
    (s.project fields).primaryKey = s.primaryKey := rfl

/-- Refuses a schema without columns, without a primary key, or whose declared key is not the
flagged one. -/
def validateStructure (s : Schema) : Outcome Unit := do
  if s.columns.isEmpty then throw (.schemaNotFound s.table)
  let flagged ← s.primaryKeyField
  if s.primaryKey ≠ "" ∧ s.primaryKey ≠ flagged then
    throw (.validation
      s!"Schema for {s.table} declares primary key {s.primaryKey} but column {flagged} is flagged")

end Schema

end DataAccess
