import DataAccess.Document.Store
import DataAccess.Schema.Basic
/-
**Schemas of document collections.**  A collection declares no columns; they are inferred from a
sample of its documents.  Every field of the sample becomes a column in order of first appearance,
with the type of its first value that is not null, behind a column for the key.

Main definitions:

* `storedType`, `ColumnType.ofStored` — the type name of a stored value and the column type it means;
* `keyColumn` — the column of the document key;
* `inferField`, `inferColumns` — the columns that a sample shows;
* `Schema.inferred` — the schema of a collection.

Main results:

* `inferColumns_nil` — an empty sample shows no columns;
* `inferField_keeps` — a column that has a type keeps it.
-/

set_option autoImplicit false

namespace DataAccess

/-- The type name of a stored value. -/
def storedType : Json → String
  | .null => "null"
  | .bool _ => "bool"
  | .number (.integer _ _) => "long"
  | .number (.float _) => "double"
  | .string s => if (parseTimestamp (.string s)).isSome then "date" else "string"
  | .array _ => "array"
  | .object _ => "object"

/-- The column type that a stored type means. -/
def ColumnType.ofStored (name : String) : ColumnType :=
  if ["double", "int", "long", "decimal"].contains name then .number
  else if ["string", "objectId"].contains name then .string
  else if name = "bool" then .boolean
  else if ["date", "timestamp"].contains name then .date
  else if ["object", "array"].contains name then .json
  else .unknown

/-- The column of the document key, which the store generates. -/
def keyColumn : Column :=
  { Column.plain documentKey .string with
    nullable := false, required := true, primaryKey := true, uniqueKey := true
    autoIncrement := true }

/-- The columns after one more stored field: a new column, or a type for one that had none yet. -/
def inferField (unique : List String) (columns : List Column) (entry : String × Json) :
    List Column :=
  let type := ColumnType.ofStored (storedType entry.2)
  if columns.any fun c => c.field = entry.1 then
    columns.map fun c => if c.field = entry.1 ∧ c.type = .unknown then { c with type } else c
  else columns ++ [{ Column.plain entry.1 type with uniqueKey := unique.contains entry.1 }]

/-- The columns that a sample of documents shows. -/
def inferColumns (unique : List String) (sample : List Record) : List Column :=
  if sample.isEmpty then [] else sample.flatten.foldl (inferField unique) [keyColumn]

@[simp] theorem inferColumns_nil (unique : List String) : inferColumns unique [] = [] := rfl

theorem inferField_keeps {columns : List Column} {c : Column} (known : c.type ≠ .unknown)
    (mem : c ∈ columns) (unique : List String) (entry : String × Json) :
    c ∈ inferField unique columns entry := by
  unfold inferField
  split
  · exact List.mem_map.2 ⟨c, mem, by simp [known]⟩
  · exact List.mem_append_left _ mem

/-- The schema of a collection with a sample of its documents, its unique indexes, and the relations
that are declared between collections. -/
def Schema.inferred (table : String) (unique : List String) (declared : List Relation)
    (sample : List Record) : Schema :=
  Schema.ofColumns table (inferColumns unique sample)
    (declared.filter fun r => r.table = table || r.ownTable = table)

end DataAccess
