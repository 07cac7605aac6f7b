import DataAccess.Engine.Operation
import DataAccess.Engine.Batch
import DataAccess.Datasource.Basic
/-
**The engine.**  The engine performs operations on a datasource.  It resolves the schema of the
table and checks requests on the way in.  Writes run guarded, their steps strictly one after
another: validation, existence, unique fields, and only then the write.  The check of unique fields
is an early refusal; the constraints of the storage decide.

Main definitions:

* `Engine` — a registry of schemas, a datasource and a configuration;
* `Engine.createRecord`, `Engine.updateRecord`, `Engine.deleteRecord` — the guarded writes;
* `Engine.updateMany`, `Engine.createMany` — the same on every item of a payload;
* `Reply`, `Engine.perform` — an operation and its reply.

Main results:

* `Engine.updateItem_keyless` — an item without a key is refused before anything is asked.
-/

set_option autoImplicit false

namespace DataAccess

/-- A registry of schemas, a datasource and a configuration, with effects in `m`. -/
structure Engine (m : Type → Type) where
  registry : SchemaRegistry m
  datasource : Datasource m
  config : Config

/-- The answer to an operation. -/
inductive Reply
  | record (row : Record)
  /-- No record matched. -/
  | missing
  | page (page : Page)
  | batch (report : BatchReport)
  | deleted (count : Nat)
  | unique (verdict : UniqueVerdict)
  | count (count : Nat)
  /-- The table was created. -/
  | created

/-- The serialised form of a count of removed records. -/
def deletedJson (count : Nat) : Json := .object [("deleted", .nat count)]

/-- The serialised form. -/
def Reply.toJson (r : Reply) : Json :=
  let tagged (kind : String) (result : List (String × Json)) : Json :=
    .object (("kind", .string kind) :: result)
  match r with
  | .record row => tagged "record" [("result", .object row)]
  | .missing => tagged "missing" []
  | .page p => tagged "page" [("result", p.toJson)]
  | .batch report => tagged "batch" [("result", report.toJson)]
  | .deleted n => tagged "deleted" [("result", deletedJson n)]
  | .unique v => tagged "unique" [("result", v.toJson)]
  | .count n => tagged "count" [("result", .nat n)]
  | .created => tagged "created" []

namespace Engine

variable {m : Type → Type}

/-- The engine whose schemas come from the datasource itself. -/
def ofDatasource (datasource : Datasource m) (cache : Cache m) (config : Config) : Engine m :=
  { registry := SchemaRegistry.ofConfig datasource.source cache config, datasource, config }

variable [Monad m]

/-- The schema of a table. -/
def schema (e : Engine m) (table : String) : ExceptT DataError m Schema :=
  e.registry.getSchema table none

/-! ### Guarded writes -/

/-- Refuses a key that no record has. -/
def requireExisting (e : Engine m) (s : Schema) (primaryKey : String) (id : Json) :
    ExceptT DataError m Unit := do
  match ← e.datasource.findOne s (.byKey primaryKey id) with
  | some _ => return ()
  | none => throw (.recordNotFound id.bareText)

/-- Refuses a record whose unique fields are taken. -/
def requireUnique (e : Engine m) (s : Schema) (data : Record) (excluded : Option Json) :
    ExceptT DataError m Unit := do
  liftExcept (← e.datasource.uniqueCheck s data excluded).outcome

/-- Validates a record and stores it. -/
def createRecord (e : Engine m) (table : String) (data : Record) :
    ExceptT DataError m Record := do
  let s ← e.schema table
  let record ← liftExcept (s.validateRequired data).outcome
  e.requireUnique s record none
  e.datasource.createOne s record

/-- Validates fields and writes them into the record with a key. -/
def updateRecord (e : Engine m) (table : String) (id : Json) (data : Record) :
    ExceptT DataError m Record := do
  let s ← e.schema table
  let record ← liftExcept (s.validateData data).outcome
  let primaryKey ← liftExcept s.primaryKeyField
  e.requireExisting s primaryKey id
  e.requireUnique s record (some id)
  e.datasource.updateOne s id record

/-- Removes the record with a key, or stamps it if the configuration says so. -/
def deleteRecord (e : Engine m) (table : String) (id : Json) : ExceptT DataError m Nat := do
  let s ← e.schema table
  let primaryKey ← liftExcept s.primaryKeyField
  e.requireExisting s primaryKey id
  e.datasource.deleteOne s id e.config.softDeleteColumn

/-! ### Batches -/

/-- Handles items one after another from a position on, and reports on each. -/
def eachItem (handle : Json → ExceptT DataError m Record) (report : BatchReport) (position : Nat) :
    List Json → m BatchReport
  | [] => return report
  | item :: rest => do
    let outcome ← (handle item).run
    eachItem handle (report.record position outcome) (position + 1) rest

/-- Stores one item. -/
def createItem (e : Engine m) (table : String) (item : Json) : ExceptT DataError m Record := do
  e.createRecord table (← liftExcept (itemRecord item))

/-- Changes the record that an item names by its key. -/
def updateItem (e : Engine m) (table primaryKey : String) (item : Json) :
    ExceptT DataError m Record := do
  let record ← liftExcept (itemRecord item)
  match record.get? primaryKey with
  | none | some .null => throw (.validation s!"{primaryKey} is required")
  | some id => e.updateRecord table id (record.swapErase primaryKey)

theorem updateItem_keyless [LawfulMonad m] {record : Record} {primaryKey : String}
    (h : record.get? primaryKey = none) (e : Engine m) (table : String) :
    e.updateItem table primaryKey (.object record) =
      throw (.validation s!"{primaryKey} is required") := by
  have lift : (liftExcept (itemRecord (.object record)) : ExceptT DataError m Record) =
      pure record := rfl
  rw [updateItem, lift, pure_bind, h]

/-- Stores every item of a payload. -/
def createMany (e : Engine m) (table : String) (data : Json) :
    ExceptT DataError m BatchReport := do
  let items ← liftExcept (batchItems data)
  let s ← e.schema table
  -- a table without a key takes no batches, though no key is needed here
  let _ ← liftExcept s.primaryKeyField
  ExceptT.lift (eachItem (e.createItem table) .empty 0 items)

/-- Changes the record of every item of a payload. -/
def updateMany (e : Engine m) (table : String) (data : Json) :
    ExceptT DataError m BatchReport := do
  let items ← liftExcept (batchItems data)
  let s ← e.schema table
  let primaryKey ← liftExcept s.primaryKeyField
  ExceptT.lift (eachItem (e.updateItem table primaryKey) .empty 0 items)

/-! ### Operations -/

/-- The checked request of a list of parameters. -/
def query (e : Engine m) (s : Schema) (params : Params) : ExceptT DataError m Query :=
  e.registry.parseQuery e.config.limits s params

/-- Performs an operation. -/
def perform (e : Engine m) : Operation → ExceptT DataError m Reply
  | .createOne table data => .record <$> e.createRecord table data
  | .createMany table data => .batch <$> e.createMany table data
  | .updateOne table id data => .record <$> e.updateRecord table id data
  | .updateMany table data => .batch <$> e.updateMany table data
  | .deleteOne table id => .deleted <$> e.deleteRecord table id
  | .findOne table params => do
    let s ← e.schema table
    let q ← e.query s params
    match ← e.datasource.findOne s q.record with
    | some row => return .record row
    | none => return .missing
  | .findMany table params => do
    let s ← e.schema table
    let q ← e.query s params
    .page <$> e.datasource.findMany s q.page
  | .count table params => do
    let s ← e.schema table
    let q ← e.query s params
    .count <$> e.datasource.count s q.conditions q.relations
  | .uniqueCheck table data excluded => do
    let s ← e.schema table
    .unique <$> e.datasource.uniqueCheck s data excluded
  | .createTable schema => do
    e.datasource.createTable schema
    return .created

end Engine

end DataAccess
