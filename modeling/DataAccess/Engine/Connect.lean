import DataAccess.Engine.Basic
import DataAccess.Sql.Bound
import DataAccess.Sql.Datasource
import DataAccess.Document.Datasource
/-
**Connecting to a backend.**  A configuration names a backend and its address.  Drivers reach the
backends: one opens pools of connections to relational backends, one opens document databases.  Not
every relational backend has a driver.

Main definitions:

* `Drivers` — how the backends are reached, with effects in a monad;
* `Config.address` — the address of the backend, which must be set;
* `Drivers.connector`, `Drivers.documents` — a connector and a store for a configuration;
* `Engine.connect` — the engine of a configuration.

Main results:

* `Config.sqlDriver_ok_iff` — the relational backends with a driver.
-/

set_option autoImplicit false

namespace DataAccess

/-- How the backends are reached, with effects in `m`. -/
structure Drivers (m : Type → Type) where
  /-- A pool of connections to a relational backend at an address. -/
  openPool : SqlDriver → String → ExceptT DataError m (SqlConnector m)
  /-- The document databases at an address by their names, and the name that the address itself
  gives. -/
  openDatabases : String → ExceptT DataError m ((String → DocumentStore m) × Option String)
  /-- The current time. -/
  now : m Timestamp

/-- The address of the backend. -/
def Config.address (c : Config) : Outcome String :=
  match c.databaseUrl with
  | some url => .ok url
  | none => .error (.config "database_url is required to connect")

/-- The driver of a relational backend, if it has one. -/
def Config.sqlDriver (c : Config) : Outcome SqlDriver :=
  match c.backend with
  | .postgres => .ok .postgres
  | .mysql => .ok .mysql
  | .mssql | .mongodb => .error (.config s!"no pooled SQL driver for {c.backend.name}")

theorem Config.sqlDriver_ok_iff (c : Config) :
    (∃ d, c.sqlDriver = .ok d) ↔ c.backend = .postgres ∨ c.backend = .mysql := by
  cases h : c.backend <;> simp [sqlDriver, h]

namespace Drivers

variable {m : Type → Type} [Monad m]

/-- A connector for the relational backend of a configuration. -/
def connector (drivers : Drivers m) (config : Config) : ExceptT DataError m (SqlConnector m) := do
  let url ← liftExcept config.address
  let driver ← liftExcept config.sqlDriver
  drivers.openPool driver url

/-- The document database of a configuration: the one it names, or else the one its address names. -/
def documents (drivers : Drivers m) (config : Config) : ExceptT DataError m (DocumentStore m) := do
  if config.backend ≠ .mongodb then
    throw (.config s!"no document driver for {config.backend.name}")
  let url ← liftExcept config.address
  let (database, addressed) ← drivers.openDatabases url
  match config.databaseName.or addressed with
  | some name => return database name
  | none => throw (.config "database_name is required when the URL names none")

end Drivers

/-- The engine of a configuration, its schemas taken from the backend. -/
def Engine.connect {m : Type → Type} [Monad m] (drivers : Drivers m) (cache : Cache m)
    (config : Config) : ExceptT DataError m (Engine m) := do
  liftExcept config.validate
  match config.backend with
  | .mongodb =>
    let store ← drivers.documents config
    return .ofDatasource (DocumentDatasource.ofConfig config store drivers.now).datasource cache
      config
  | _ =>
    let connector ← drivers.connector config
    let d ← liftExcept (SqlDatasource.ofConfig config connector drivers.now)
    return .ofDatasource d.datasource cache config

end DataAccess
