import DataAccess.Query.Relations
/-
**Shaping rows.**  Backends return flat rows.  The value of a joined column comes under the key
`path.field`; it is read by the type of the joined column and put into one nested object per hop of
the path.  All other values are read by the types of the base table.

Main definitions:

* `Record.insertBelow` — a field below a path of nested objects;
* `Schema.readField` — a value in the form that callers receive;
* `Schema.shapeRow` — a flat row as a nested record.

Main results:

* `Schema.shapeRow_nil` — an empty row is an empty record;
* `Schema.shapeEntry_plain` — a key without a dot stays where it is.
-/

set_option autoImplicit false

namespace DataAccess

/-- The entries of an object; nothing for other values. -/
def Json.entries : Json → Record
  | .object fields => fields
  | _ => []

/-- A record with a field below a path of nested objects; what stands in the way of the path gives
way to an object. -/
def Record.insertBelow (out : Record) : List String → String → Json → Record
  | [], field, v => Keyed.insert out field v
  | hop :: rest, field, v =>
    let inner : Record := ((out.get? hop).map Json.entries).getD []
    Keyed.insert out hop (.object (Record.insertBelow inner rest field v))

namespace Schema

/-- A value of a field in the form that callers receive; a field without a column is left alone. -/
def readField (s : Schema) (field : String) (v : Json) : Outcome Json :=
  match s.column? field with
  | some c => coerceRead c.type v
  | none => .ok v

/-- A record with one more entry of a flat row. -/
def shapeEntry (s : Schema) (nodes : List RelationNode) (out : Record) (entry : String × Json) :
    Outcome Record :=
  let joined : Option (RelationNode × String) := do
    let (path, field) ← Text.cutLast '.' entry.1
    let n ← nodes.find? fun n => n.path = path
    some (n, field)
  match joined with
  | some (n, field) =>
    (n.schema.readField field entry.2).map (out.insertBelow (Text.splitOn '.' n.path) field)
  | none => (s.readField entry.1 entry.2).map (out.insert entry.1)

/-- A flat row as a record with one nested object per hop; the first value that cannot be read is
the error. -/
def shapeRow (s : Schema) (nodes : List RelationNode) (row : Record) : Outcome Record :=
  row.foldlM (s.shapeEntry nodes) []

@[simp] theorem shapeRow_nil (s : Schema) (nodes : List RelationNode) :
    s.shapeRow nodes [] = .ok [] := rfl

theorem shapeEntry_plain {key : String} (h : Text.cutLast '.' key = none) (s : Schema)
    (nodes : List RelationNode) (out : Record) (v : Json) :
    s.shapeEntry nodes out (key, v) = (s.readField key v).map (out.insert key) := by
  simp [shapeEntry, h]

end Schema

end DataAccess
