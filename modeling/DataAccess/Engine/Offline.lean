import DataAccess.Document.Address
import DataAccess.Engine.Connect
/-
**Drivers without a network.**  A program that is linked with no driver can still compile requests
and check configurations; every attempt to reach a backend fails with a connection error.

Main definitions:

* `DocumentStore.unreachable` — the store of a server that cannot be reached;
* `Drivers.offline` — drivers that reach nothing.

Main results:

* `Drivers.connector_offline` — no configuration gets a connector.
-/

set_option autoImplicit false

namespace DataAccess

variable {m : Type → Type} [Monad m]

/-- The store of a server that cannot be reached. -/
def DocumentStore.unreachable (failure : NativeError) : DocumentStore m where
  ping := throw failure
  listCollections := throw failure
  createCollection _ _ := throw failure
  uniqueIndexes _ := throw failure
  insertOne _ _ := throw failure
  find _ _ _ := throw failure
  count _ _ := throw failure
  updateOne _ _ _ := throw failure
  deleteOne _ _ := throw failure

namespace Drivers

/-- Why nothing can be reached. -/
def offlineReason : String := "no network driver is linked"

/-- Drivers that reach nothing. -/
def offline (now : m Timestamp) : Drivers m where
  openPool _ _ := throw (.connection offlineReason)
  openDatabases address :=
    return (fun _ => .unreachable ⟨none, offlineReason⟩, addressedDatabase address)
  now

theorem connector_offline [LawfulMonad m] (now : m Timestamp) (config : Config) :
    ∃ e, (offline now).connector config = throw e := by
  unfold connector
  cases config.address with
  | error e => exact ⟨e, by simp [liftExcept]⟩
  | ok url =>
    cases config.sqlDriver with
    | error e => exact ⟨e, by simp [liftExcept]⟩
    | ok d => exact ⟨.connection offlineReason, by simp [liftExcept, offline]⟩

end Drivers

end DataAccess
