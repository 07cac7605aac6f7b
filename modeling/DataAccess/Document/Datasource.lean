import DataAccess.Document.Inference
import DataAccess.Datasource.Basic
/-
**Document datasources.**  The operations of a datasource over a document store.  Conditions become
filters; a condition on a joined collection asks that collection first and then filters by the keys
it found.  Relations are looked up row by row and hop by hop, as an outer join would.

Main definitions:

* `DocumentDatasource` — a store and the settings that matter;
* `RelationNode.joinFields` — the fields that a hop joins;
* `DocumentDatasource.compileFilter` — the filter of a list of conditions;
* `DocumentDatasource.attachRelations` — the joined values of a row;
* `DocumentDatasource.createOne`, `DocumentDatasource.findMany`, … — the operations;
* `DocumentDatasource.datasource` — all of them as a datasource.

Main results:

* `Schema.toStored_keys` — storing a record keeps its keys.
-/

set_option autoImplicit false

namespace DataAccess

/-- A datasource over documents, with effects in `m`. -/
structure DocumentDatasource (m : Type → Type) where
  store : DocumentStore m
  /-- The relations between collections. -/
  relations : List Relation
  /-- The size of a page when none is asked for. -/
  defaultLimit : Nat
  /-- Fields that identify a record besides the unique ones. -/
  identityFields : List String
  /-- The current time. -/
  now : m Timestamp

/-- The fields that a hop joins: the one on the side it comes from, and the one of its own
collection. -/
def RelationNode.joinFields (n : RelationNode) : String × String :=
  if n.table = n.join.table then (n.join.ownColumn, n.join.column)
  else (n.join.column, n.join.ownColumn)

/-- The filter of a key. -/
def keyFilter (id : Json) : Filter := .object [(documentKey, .object [("$eq", id)])]

namespace Schema

/-- The type of a column that must exist. -/
def columnType (s : Schema) (field : String) : Outcome ColumnType :=
  match s.column? field with
  | some c => .ok c.type
  | none => .error (.unknownField field s.table)

/-- A record in the form that the store receives. -/
def toStored (s : Schema) (data : Record) : Record :=
  data.map fun (key, v) =>
    match s.column? key with
    | some c => (key, coerceWrite c.type v .native)
    | none => (key, v)

theorem toStored_keys (s : Schema) (data : Record) :
    Keyed.keys (s.toStored data) = Keyed.keys data := by
  unfold toStored Keyed.keys
  rw [List.map_map]
  refine List.map_congr_left fun entry _ => ?_
  simp only [Function.comp]
  split <;> rfl

/-- What a collection asks of its documents when it is created from a schema. -/
def collectionRules (s : Schema) : CollectionRules :=
  { unique := (s.columns.filter fun c => c.uniqueKey && !c.primaryKey).map Column.field
    required := (s.columns.filter fun c =>
      c.required && c.default.isNone && !c.isServerGenerated).map Column.field }

end Schema

namespace DocumentDatasource

variable {m : Type → Type}

/-- The number of documents that a schema is inferred from. -/
def sampleSize : Nat := 100

/-- The datasource of a configuration. -/
def ofConfig (config : Config) (store : DocumentStore m) (now : m Timestamp) :
    DocumentDatasource m :=
  { store, relations := config.documentRelations, defaultLimit := config.defaultLimit
    identityFields := config.identityFields, now }

variable [Monad m]

/-- An operation of the store, its failure classified. -/
def ask {α : Type} (operation : ExceptT NativeError m α) : ExceptT DataError m α :=
  ExceptT.mk do return (← operation.run).mapError NativeError.ofStore

/-! ### Filters and relations -/

/-- The filter that keeps documents related to some that satisfy a condition. -/
def relatedFilter (d : DocumentDatasource m) (s : Schema) (relations : List RelationNode)
    (c : WhereCondition) (path field : String) : ExceptT DataError m Filter := do
  if path.toList.contains '.' then
    throw (.validation (s!"Filtering on {c.column} spans more than one relation, " ++
      "which document backends do not support"))
  match relations.find? fun n => n.path = path with
  | none => throw (.unknownRelation path s.table)
  | some n =>
    let (near, far) := n.joinFields
    let type ← liftExcept (n.schema.columnType field)
    let inner := Filter.ofCondition field type c.operator c.value
    let related ← ask (d.store.find n.table inner (.only [far]))
    -- the base documents are those that name one of the keys found
    let keys := related.filterMap fun doc => doc.get? far
    return .object [(near, .object [("$in", .array keys)])]

/-- The filter of a condition. -/
def conditionFilter (d : DocumentDatasource m) (s : Schema) (relations : List RelationNode)
    (c : WhereCondition) : ExceptT DataError m Filter :=
  match c.path? with
  | none => do
    let type ← liftExcept (s.columnType c.column)
    return Filter.ofCondition c.column type c.operator c.value
  | some (path, field) => d.relatedFilter s relations c path field

/-- The filter of a list of conditions. -/
def compileFilter (d : DocumentDatasource m) (s : Schema) (conditions : List WhereCondition)
    (relations : List RelationNode) : ExceptT DataError m Filter := do
  return Filter.all (← conditions.mapM (d.conditionFilter s relations))

/-- The document that a hop joins to a value; null joins nothing. -/
def related (d : DocumentDatasource m) (n : RelationNode) (key : Option Json) :
    ExceptT DataError m (Option Record) :=
  match key with
  | none | some .null => return none
  | some v => do
    let filter : Filter := .object [(n.joinFields.2, .object [("$eq", v)])]
    return (← ask (d.store.find n.table filter (.first 1))).head?

/-- One hop: the row with the projected fields of the joined document, null where there is none, and
the joined documents so far by their paths. -/
def attachRelation (d : DocumentDatasource m) (state : Record × Keyed Record) (n : RelationNode) :
    ExceptT DataError m (Record × Keyed Record) := do
  let (row, joined) := state
  let parent : Option Record := match Text.cutLast '.' n.path with
    | some (before, _) => joined.get? before
    | none => some row
  let found ← d.related n (parent.bind fun p => p.get? n.joinFields.1)
  let row := (n.columns.getD []).foldl (fun (row : Record) field =>
    row.insert s!"{n.path}.{field}" ((found.bind fun doc => doc.get? field).getD .null)) row
  return (row, match found with
    | some doc => joined.insert n.path doc
    | none => joined)

/-- A row with the joined values of every relation. -/
def attachRelations (d : DocumentDatasource m) (relations : List RelationNode) (row : Record) :
    ExceptT DataError m Record := do
  return (← relations.foldlM d.attachRelation (row, [])).1

/-- A row cut down to the requested fields; the key and joined values stay. -/
def keepFields (fields : Option (List String)) (row : Record) : Record :=
  match fields.getD [] with
  | [] => row
  | fields => row.filter fun entry =>
      entry.1 = documentKey || entry.1.toList.contains '.' || fields.contains entry.1

/-- A stored document as the record that callers receive. -/
def finishRow (d : DocumentDatasource m) (s : Schema) (fields : Option (List String))
    (relations : List RelationNode) (row : Record) : ExceptT DataError m Record := do
  let row ← d.attachRelations relations row
  liftExcept (s.shapeRow relations (keepFields fields row))

/-! ### The backend -/

/-- Makes sure that the store answers. -/
def checkConnection (d : DocumentDatasource m) : ExceptT DataError m Unit :=
  ExceptT.mk do return (← d.store.ping.run).mapError fun e => .connection e.message

/-- Infers the schema of a collection. -/
def introspect (d : DocumentDatasource m) (table : String) : ExceptT DataError m Schema := do
  let sample ← ask (d.store.find table (.object []) (.first sampleSize))
  let unique ← ask (d.store.uniqueIndexes table)
  return Schema.inferred table unique d.relations sample

/-- Creates a collection with the rules of a schema. -/
def createTable (d : DocumentDatasource m) (s : Schema) : ExceptT DataError m Unit := do
  liftExcept s.validateStructure
  ask (d.store.createCollection s.table s.collectionRules)

/-! ### Records -/

/-- A record without the fields that the store generates. -/
def withoutGenerated (s : Schema) (data : Record) : Record :=
  (s.columns.filter Column.isServerGenerated).foldl (fun data c => data.swapErase c.field) data

/-- Stores a record. -/
def createOne (d : DocumentDatasource m) (s : Schema) (data : Record) :
    ExceptT DataError m Record := do
  let stored ← ask (d.store.insertOne s.table (s.toStored (withoutGenerated s data)))
  liftExcept (s.shapeRow [] stored)

/-- Reads the first matching record. -/
def findOne (d : DocumentDatasource m) (s : Schema) (q : RecordQuery) :
    ExceptT DataError m (Option Record) := do
  let filter ← d.compileFilter s q.conditions q.relations
  match ← ask (d.store.find s.table filter (.first 1)) with
  | row :: _ => return some (← d.finishRow s q.fields q.relations row)
  | [] => return none

/-- The order of a read; clauses on joined collections do not count. -/
def sortFields (sort : List SortCondition) : List SortField :=
  (sort.filter fun c => !c.isDeep).map fun c => (c.column, c.direction)

/-- Reads a page: the number of matching records first, and the records only if there are any. -/
def findMany (d : DocumentDatasource m) (s : Schema) (q : PageQuery) :
    ExceptT DataError m Page := do
  let limit := q.limit.getD d.defaultLimit
  let offset := q.offset.getD 0
  let filter ← d.compileFilter s q.conditions q.relations
  let total ← ask (d.store.count s.table filter)
  if total = 0 then return Page.empty limit offset
  let read : StoreRead :=
    { sort := sortFields q.sort, skip := offset, limit := some limit, projection := none }
  let rows ← ask (d.store.find s.table filter read)
  let data ← rows.mapM (d.finishRow s q.fields q.relations)
  return { data, total, limit, offset }

/-- Changes the record with a key. -/
def updateOne (d : DocumentDatasource m) (s : Schema) (id : Json) (data : Record) :
    ExceptT DataError m Record := do
  let fields := data.swapErase documentKey
  if fields.isEmpty then throw (.validation "No fields provided to update")
  match ← ask (d.store.updateOne s.table (keyFilter id) (s.toStored fields)) with
  | some doc => liftExcept (s.shapeRow [] doc)
  | none => throw (.recordNotFound id.bareText)

/-- Removes the record with a key, or stamps a field with the current time. -/
def deleteOne (d : DocumentDatasource m) (s : Schema) (id : Json) (stamped : Option String) :
    ExceptT DataError m Nat :=
  match stamped with
  | some field => do
    let now ← ExceptT.lift d.now
    let stamp : Record := [(field, .string now.native)]
    let updated ← ask (d.store.updateOne s.table (keyFilter id) stamp)
    return if updated.isSome then 1 else 0
  | none => ask (d.store.deleteOne s.table (keyFilter id))

/-- Looks for each candidate's value in turn, up to the first that is taken. -/
def checkCandidates (d : DocumentDatasource m) (s : Schema) (excluded : Option Json) :
    List (Column × Json) → ExceptT DataError m UniqueVerdict
  | [] => return .valid
  | (column, v) :: rest => do
    let same := Filter.ofCondition column.field column.type .equals v
    let others : List Filter :=
      (excluded.map fun id => Json.object [(documentKey, .object [("$ne", id)])]).toList
    let count ← ask (d.store.count s.table (Filter.all (same :: others)))
    if 0 < count then return .duplicate column.field
    checkCandidates d s excluded rest

/-- Whether the unique fields of a record are free. -/
def uniqueCheck (d : DocumentDatasource m) (s : Schema) (data : Record) (excluded : Option Json) :
    ExceptT DataError m UniqueVerdict :=
  d.checkCandidates s excluded (s.uniqueCandidates d.identityFields data)

/-- Counts matching records. -/
def count (d : DocumentDatasource m) (s : Schema) (conditions : List WhereCondition)
    (relations : List RelationNode) : ExceptT DataError m Nat := do
  let filter ← d.compileFilter s conditions relations
  ask (d.store.count s.table filter)

/-- The operations as a datasource. -/
def datasource (d : DocumentDatasource m) : Datasource m where
  backend := .mongodb
  checkConnection := d.checkConnection
  listTables := ask d.store.listCollections
  introspect := d.introspect
  createOne := d.createOne
  findOne := d.findOne
  findMany := d.findMany
  updateOne := d.updateOne
  deleteOne := d.deleteOne
  uniqueCheck := d.uniqueCheck
  count := d.count
  createTable := d.createTable

end DocumentDatasource

end DataAccess
