import DataAccess.Schema.Codec
import DataAccess.Json.Reader
/-
**Where schemas come from.**  A source describes the tables of a backend one at a time, with the
effects of asking that backend.  A set of schemas written down beforehand is a source as well.

Main definitions:

* `SchemaSource` — the description of a table, with effects in a monad;
* `SchemaSet` — schemas by table, with `SchemaSet.insert`, `SchemaSet.find`, `SchemaSet.tables`;
* `SchemaSet.ofText` — the set that a schema file declares.

Main results:

* `SchemaSet.find_insert_self` — an inserted schema is found under its table.
-/

set_option autoImplicit false

namespace DataAccess

/-- A description of tables on demand, with effects in `m`. -/
structure SchemaSource (m : Type → Type) where
  /-- The full schema of a table. -/
  introspect : String → ExceptT DataError m Schema

/-- Schemas by their table. -/
abbrev SchemaSet := Keyed Schema

namespace SchemaSet

/-- Adds a schema; it replaces the one of the same table. -/
def insert (set : SchemaSet) (s : Schema) : SchemaSet := Keyed.insert set s.table s

/-- The set of these schemas; of several for one table the last one counts. -/
def ofList (schemas : List Schema) : SchemaSet := schemas.foldl insert []

/-- The schema of a table. -/
def find (set : SchemaSet) (table : String) : Outcome Schema :=
  match Keyed.get? set table with
  | some s => .ok s
  | none => .error (.schemaNotFound table)

@[simp] theorem find_insert_self (set : SchemaSet) (s : Schema) :
    (insert set s).find s.table = .ok s := by
  simp [find, insert]

/-- The tables in the order of their names. -/
def tables (set : SchemaSet) : List String :=
  (Keyed.keys set).mergeSort fun a b => decide (a ≤ b)

/-- The set that a JSON list of schemas declares; every schema must make sense. -/
def ofText (text : String) : Outcome SchemaSet := do
  match Json.readEntries? text >>= decodeList Schema.ofJson? with
  | none => throw (.validation Json.malformed)
  | some schemas =>
    schemas.forM Schema.validateStructure
    return ofList schemas

/-- The set as a source. -/
def source (m : Type → Type) [Monad m] (set : SchemaSet) : SchemaSource m :=
  ⟨fun table => ExceptT.mk (pure (set.find table))⟩

end SchemaSet

end DataAccess
