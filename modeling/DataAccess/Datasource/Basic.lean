import DataAccess.Datasource.Shape
import DataAccess.Query.Request
/-
**Datasources.**  A datasource reads and writes the records of tables, whatever the backend behind
it.  Its operations take schemas, conditions and relations that were checked before, and every
failure they report is classified.

Main definitions:

* `RecordQuery`, `PageQuery` — what a read of one record and of a page asks for;
* `Page` — the answer to a paged read;
* `UniqueVerdict` — the answer to an advisory check of unique fields;
* `Datasource` — the operations, with effects in a monad;
* `Schema.uniqueCandidates` — the fields that such a check covers.

Main results:

* `UniqueVerdict.outcome_ok_iff` — only a valid record passes;
* `Schema.uniqueCandidates_mem` — every candidate holds a value of the record that is not null.
-/

set_option autoImplicit false

namespace DataAccess

/-! ### Reads -/

/-- What a read of one record asks for. -/
structure RecordQuery where
  conditions : List WhereCondition
  /-- The projected fields; without any every column. -/
  fields : Option (List String)
  relations : List RelationNode
deriving Repr

/-- What a paged read asks for; without a limit the datasource uses its own. -/
structure PageQuery extends RecordQuery where
  sort : List SortCondition
  limit : Option Nat
  offset : Option Nat
deriving Repr

/-- The record with a key. -/
def RecordQuery.byKey (primaryKey : String) (id : Json) : RecordQuery :=
  { conditions := [⟨primaryKey, .equals, id⟩], fields := none, relations := [] }

namespace Query

/-- A checked request as a read of one record. -/
def record (q : Query) : RecordQuery :=
  { conditions := q.conditions, fields := q.fields, relations := q.relations }

/-- A checked request as a paged read. -/
def page (q : Query) : PageQuery :=
  { q.record with sort := q.sort, limit := some q.limit, offset := some q.offset }

end Query

/-- The answer to a paged read. -/
structure Page where
  data : List Record
  /-- The number of matching records on all pages. -/
  total : Nat
  limit : Nat
  offset : Nat
deriving Repr

namespace Page

/-- The markers around the page. -/
def pagination (p : Page) : Pagination := Pagination.compute p.limit p.offset p.total

/-- The page of a read that matched nothing. -/
def empty (limit offset : Nat) : Page := ⟨[], 0, limit, offset⟩

/-- The serialised form. -/
def toJson (p : Page) : Json :=
  .object
    [("data", .array (p.data.map Json.object)), ("total", .nat p.total), ("limit", .nat p.limit),
     ("offset", .nat p.offset), ("pagination", p.pagination.toJson)]

end Page

/-! ### Unique fields -/

/-- The answer to an advisory check of unique fields. -/
inductive UniqueVerdict
  | valid
  /-- The field already holds the value in another record. -/
  | duplicate (field : String)
deriving DecidableEq, Repr

namespace UniqueVerdict

/-- The verdict as an outcome. -/
def outcome : UniqueVerdict → Outcome Unit
  | .valid => .ok ()
  | .duplicate _ => .error .duplicateRecord

@[simp] theorem outcome_ok_iff (v : UniqueVerdict) : v.outcome = .ok () ↔ v = .valid := by
  cases v <;> simp [outcome]

/-- The serialised form. -/
def toJson : UniqueVerdict → Json
  | .valid => .object [("valid", .bool true)]
  | .duplicate field =>
    .object
      [("valid", .bool false), ("reason", .string ErrorKind.duplicateRecord.code),
       ("message", .string DataError.duplicateRecord.message), ("field", .string field)]

end UniqueVerdict

/-- The columns that a check of unique fields covers, with the values to look for: columns that are
unique or identify a record, where the record holds a value that is not null. -/
def Schema.uniqueCandidates (s : Schema) (identity : List String) (data : Record) :
    List (Column × Json) :=
  (s.columns.filter fun c => c.uniqueKey || identity.contains c.field).filterMap fun c =>
    match data.get? c.field with
    | some v => if v.isNull then none else some (c, v)
    | none => none

theorem Schema.uniqueCandidates_mem {s : Schema} {identity : List String} {data : Record}
    {c : Column} {v : Json} (h : (c, v) ∈ s.uniqueCandidates identity data) :
    c ∈ s.columns ∧ data.get? c.field = some v ∧ v.isNull = false := by
  simp only [uniqueCandidates, List.mem_filterMap, List.mem_filter] at h
  obtain ⟨d, ⟨hd, _⟩, he⟩ := h
  cases hv : data.get? d.field with
  | none => simp [hv] at he
  | some w =>
    cases hw : w.isNull with
    | true => simp [hv, hw] at he
    | false =>
      simp only [hv, hw, Bool.false_eq_true, if_false, Option.some.injEq, Prod.mk.injEq] at he
      obtain ⟨rfl, rfl⟩ := he
      exact ⟨hd, hv, hw⟩

/-! ### The operations -/

/-- The operations on the records of a backend, with effects in `m`. -/
structure Datasource (m : Type → Type) where
  backend : Backend
  /-- Makes sure that the backend answers. -/
  checkConnection : ExceptT DataError m Unit
  listTables : ExceptT DataError m (List String)
  /-- Describes a table. -/
  introspect : String → ExceptT DataError m Schema
  /-- Stores a record and returns it as it was stored. -/
  createOne : Schema → Record → ExceptT DataError m Record
  /-- The first matching record. -/
  findOne : Schema → RecordQuery → ExceptT DataError m (Option Record)
  findMany : Schema → PageQuery → ExceptT DataError m Page
  /-- Changes the record with a key and returns it as it is then. -/
  updateOne : Schema → Json → Record → ExceptT DataError m Record
  /-- Removes the record with a key, or stamps the given column instead; returns how many records
  were affected. -/
  deleteOne : Schema → Json → Option String → ExceptT DataError m Nat
  /-- Whether the unique fields of a record are free, apart from the record with a key. -/
  uniqueCheck : Schema → Record → Option Json → ExceptT DataError m UniqueVerdict
  count : Schema → List WhereCondition → List RelationNode → ExceptT DataError m Nat
  createTable : Schema → ExceptT DataError m Unit

/-- The tables of a datasource as a source of schemas. -/
def Datasource.source {m : Type → Type} (d : Datasource m) : SchemaSource m := ⟨d.introspect⟩

end DataAccess
