import DataAccess.Sql.Connection
import DataAccess.Sql.Statement
import DataAccess.Sql.Catalog
import DataAccess.Sql.Bootstrap
import DataAccess.Datasource.Basic
/-
**Relational datasources.**  One datasource for every relational backend.  An operation compiles its
statements for the dialect and runs them one after another on a connection of its own; a statement
that fails ends the operation with its cause.

Main definitions:

* `SqlDatasource` — a dialect, a connector and the settings that matter;
* `SqlDatasource.run` — one statement, its failure classified;
* `readTotal` — a count out of the rows of a statement;
* `SqlDatasource.createOne`, `SqlDatasource.findMany`, … — the operations;
* `SqlDatasource.datasource` — all of them as a datasource.

Main results:

* `readTotal_nil` — no rows count as none.
-/

set_option autoImplicit false

namespace DataAccess

/-- A relational datasource, with effects in `m`. -/
structure SqlDatasource (m : Type → Type) where
  backend : Backend
  dialect : Dialect
  connector : SqlConnector m
  /-- The size of a page when none is asked for. -/
  defaultLimit : Nat
  /-- Fields that identify a record besides the unique ones. -/
  identityFields : List String
  /-- The current time. -/
  now : m Timestamp

/-- The count in the column `total` of the first row; what is no count is zero. -/
def readTotal (rows : List Record) : Nat :=
  let total : Option Number := do
    let v ← Keyed.get? (← rows.head?) "total"
    (← coerceNumber v).asNumber?
  match total with
  | some (.integer i _) => i.toNat
  | some (.float x) => if x.negative then 0 else min x.floorAbs (2 ^ 64 - 1)
  | none => 0

@[simp] theorem readTotal_nil : readTotal [] = 0 := rfl

namespace SqlDatasource

variable {m : Type → Type}

/-- The datasource of a configuration, if its backend is relational. -/
def ofConfig (config : Config) (connector : SqlConnector m) (now : m Timestamp) :
    Outcome (SqlDatasource m) := do
  let dialect ← config.backend.dialect
  return { backend := config.backend, dialect, connector, defaultLimit := config.defaultLimit
           identityFields := config.identityFields, now }

variable [Monad m]

/-! ### Statements -/

/-- Runs a compiled statement. -/
def run (d : SqlDatasource m) (c : SqlConnection m) (q : CompiledQuery) :
    ExceptT DataError m QueryOutput := do
  match ← ExceptT.lift (c.execute q).run with
  | .ok output => return output
  | .error e => throw (d.dialect.classify e)

/-- Compiles and runs a statement. -/
def runStatement (d : SqlDatasource m) (c : SqlConnection m) (s : Statement) :
    ExceptT DataError m QueryOutput :=
  d.run c (s.compile d.dialect)

/-- Compiles and runs a count. -/
def runCount (d : SqlDatasource m) (c : SqlConnection m) (s : Statement) :
    ExceptT DataError m Nat := do
  return readTotal (← d.runStatement c s).rows

/-! ### The backend -/

/-- Makes sure that the backend answers. -/
def checkConnection (d : SqlDatasource m) : ExceptT DataError m Unit :=
  d.connector.withConnection fun c => do
    match ← ExceptT.lift (d.run c ⟨"SELECT 1", []⟩).run with
    | .ok _ => return ()
    | .error e => throw (.connection e.message)

/-- The names of the tables. -/
def listTables (d : SqlDatasource m) : ExceptT DataError m (List String) :=
  d.connector.withConnection fun c => do
    let output ← d.run c ⟨d.dialect.tablesQuery, []⟩
    return output.rows.filterMap fun row => (row.get? "name").bind Json.asString?

/-- Describes a table from the catalog. -/
def introspect (d : SqlDatasource m) (table : String) : ExceptT DataError m Schema :=
  d.connector.withConnection fun c => do
    let name := Json.string table
    let output ← d.run c ⟨d.dialect.columnsQuery, [name]⟩
    let columns ← liftExcept (output.rows.mapM d.dialect.columnOfRow)
    let output ← d.run c ⟨d.dialect.relationsQuery, [name, name]⟩
    return Schema.ofColumns table columns (output.rows.filterMap relationOfRow?)

/-- Creates a table. -/
def createTable (d : SqlDatasource m) (s : Schema) : ExceptT DataError m Unit := do
  let statements ← liftExcept (d.dialect.createTable s)
  d.connector.withConnection fun c => statements.forM fun sql => do
    let _ ← d.run c ⟨sql, []⟩

/-! ### Records -/

/-- The rows that a write left behind: its own, or those read back by a key. -/
def writtenRows (d : SqlDatasource m) (c : SqlConnection m) (output : QueryOutput)
    (readBack : Outcome Statement) : ExceptT DataError m (List Record) :=
  match d.dialect.returning with
  | .clause | .output => return output.rows
  | .reselect => do return (← d.runStatement c (← liftExcept readBack)).rows

/-- Reads the row of an insert back: by the key that the server generated, or else by the key that
was written. -/
def readInserted (d : SqlDatasource m) (s : Schema) (data : Record) : Outcome Statement := do
  let primaryKey ← s.primaryKeyField
  -- a generated key is not known here, so the server is asked for the last one
  let generated := ((s.column? primaryKey).map Column.isServerGenerated).getD false
  Statement.selectByKey d.dialect s (if generated then none else data.get? primaryKey)

/-- Stores a record. -/
def createOne (d : SqlDatasource m) (s : Schema) (data : Record) : ExceptT DataError m Record :=
  d.connector.withConnection fun c => do
    let output ← d.runStatement c (Statement.insert d.dialect.returning s data)
    match ← d.writtenRows c output (d.readInserted s data) with
    | row :: _ => liftExcept (s.shapeRow [] row)
    | [] => throw (.backend s!"Insert into {s.table} returned no row")

/-- Reads the first matching record. -/
def findOne (d : SqlDatasource m) (s : Schema) (q : RecordQuery) :
    ExceptT DataError m (Option Record) := do
  let select ← liftExcept
    (Statement.select s q.fields q.relations q.conditions [] (some ⟨1, 0⟩))
  d.connector.withConnection fun c => do
    match (← d.runStatement c select).rows with
    | row :: _ => return some (← liftExcept (s.shapeRow q.relations row))
    | [] => return none

/-- Reads a page: the number of matching records first, and their rows only if there are any. -/
def findMany (d : SqlDatasource m) (s : Schema) (q : PageQuery) : ExceptT DataError m Page := do
  let limit := q.limit.getD d.defaultLimit
  let offset := q.offset.getD 0
  let count ← liftExcept (Statement.count s q.relations q.conditions)
  d.connector.withConnection fun c => do
    -- an empty result needs no second statement
    let total ← d.runCount c count
    if total = 0 then return Page.empty limit offset
    let select ← liftExcept
      (Statement.select s q.fields q.relations q.conditions q.sort (some ⟨limit, offset⟩))
    let output ← d.runStatement c select
    let data ← liftExcept (output.rows.mapM (s.shapeRow q.relations))
    return { data, total, limit, offset }

/-- Changes the record with a key. -/
def updateOne (d : SqlDatasource m) (s : Schema) (id : Json) (data : Record) :
    ExceptT DataError m Record := do
  let update ← liftExcept (Statement.update d.dialect.returning s id data)
  d.connector.withConnection fun c => do
    let output ← d.runStatement c update
    match ← d.writtenRows c output (Statement.selectByKey d.dialect s (some id)) with
    | row :: _ => liftExcept (s.shapeRow [] row)
    | [] => throw (.recordNotFound id.bareText)

/-- Removes the record with a key, or stamps a column with the current time. -/
def deleteOne (d : SqlDatasource m) (s : Schema) (id : Json) (stamped : Option String) :
    ExceptT DataError m Nat := do
  let statement ← match stamped with
    | some column => do
      let now ← ExceptT.lift d.now
      liftExcept (Statement.softDelete s id column now.native)
    | none => liftExcept (Statement.delete s id)
  d.connector.withConnection fun c => do
    return min (← d.runStatement c statement).affected 1

/-- Looks for each candidate's value in turn, up to the first that is taken. -/
def checkCandidates (d : SqlDatasource m) (c : SqlConnection m) (s : Schema)
    (excluded : Option Json) : List (Column × Json) → ExceptT DataError m UniqueVerdict
  | [] => return .valid
  | (column, v) :: rest => do
    let count ← liftExcept (Statement.countMatching s column.field v excluded)
    if 0 < (← d.runCount c count) then return .duplicate column.field
    checkCandidates d c s excluded rest

/-- Whether the unique fields of a record are free; without any no connection is made. -/
def uniqueCheck (d : SqlDatasource m) (s : Schema) (data : Record) (excluded : Option Json) :
    ExceptT DataError m UniqueVerdict :=
  match s.uniqueCandidates d.identityFields data with
  | [] => return .valid
  | candidates => d.connector.withConnection fun c => d.checkCandidates c s excluded candidates

/-- Counts matching records. -/
def count (d : SqlDatasource m) (s : Schema) (conditions : List WhereCondition)
    (relations : List RelationNode) : ExceptT DataError m Nat := do
  let count ← liftExcept (Statement.count s relations conditions)
  d.connector.withConnection fun c => d.runCount c count

/-- The operations as a datasource. -/
def datasource (d : SqlDatasource m) : Datasource m where
  backend := d.backend
  checkConnection := d.checkConnection
  listTables := d.listTables
  introspect := d.introspect
  createOne := d.createOne
  findOne := d.findOne
  findMany := d.findMany
  updateOne := d.updateOne
  deleteOne := d.deleteOne
  uniqueCheck := d.uniqueCheck
  count := d.count
  createTable := d.createTable

end SqlDatasource

end DataAccess
