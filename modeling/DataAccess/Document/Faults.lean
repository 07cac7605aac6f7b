import DataAccess.Document.Store
/-
**Faults of document stores.**  How an operation behaves when its store fails is tried out on a
store with a check before every operation: a check that fails takes the place of the operation.

Main definitions:

* `StoreOperation` — the operations of a store, with their names;
* `DocumentStore.checked` — a store with a check before every operation;
* `Fault`, `Fault.check` — one arranged failure, which happens once.

Main results:

* `Fault.check_other` — an arranged failure of one operation leaves the others alone.
-/

set_option autoImplicit false

namespace DataAccess

/-- An operation of a document store. -/
inductive StoreOperation
  | ping
  | listCollections
  | createCollection
  | uniqueIndexes
  | insertOne
  | find
  | count
  | updateOne
  | deleteOne
deriving DecidableEq, Repr

/-- The operations under their names. -/
def StoreOperation.names : List (String × StoreOperation) :=
  [("ping", .ping), ("list_collections", .listCollections),
   ("create_collection", .createCollection), ("unique_indexes", .uniqueIndexes),
   ("insert_one", .insertOne), ("find", .find), ("count", .count), ("update_one", .updateOne),
   ("delete_one", .deleteOne)]

/-- A store with a check before every operation. -/
def DocumentStore.checked {m : Type → Type} [Monad m] (store : DocumentStore m)
    (check : StoreOperation → ExceptT NativeError m Unit) : DocumentStore m where
  ping := check .ping *> store.ping
  listCollections := check .listCollections *> store.listCollections
  createCollection name rules := check .createCollection *> store.createCollection name rules
  uniqueIndexes name := check .uniqueIndexes *> store.uniqueIndexes name
  insertOne name doc := check .insertOne *> store.insertOne name doc
  find name filter read := check .find *> store.find name filter read
  count name filter := check .count *> store.count name filter
  updateOne name filter fields := check .updateOne *> store.updateOne name filter fields
  deleteOne name filter := check .deleteOne *> store.deleteOne name filter

/-- A failure arranged for the next call of an operation. -/
structure Fault where
  operation : StoreOperation
  error : NativeError
deriving DecidableEq, Repr

/-- The check that fails as arranged, and what is still arranged after it. -/
def Fault.check (arranged : Option Fault) (operation : StoreOperation) :
    Except NativeError Unit × Option Fault :=
  match arranged with
  | some f => if f.operation = operation then (.error f.error, none) else (.ok (), some f)
  | none => (.ok (), none)

theorem Fault.check_other {f : Fault} {operation : StoreOperation} (h : f.operation ≠ operation) :
    check (some f) operation = (.ok (), some f) := by
  simp [check, h]

end DataAccess
