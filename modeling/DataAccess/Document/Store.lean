import DataAccess.Document.Filter
import DataAccess.Error
/-
**Document stores.**  A document store holds collections of documents, each addressed by its key
field, and knows fields that must be unique or present.  Its failures carry codes, two of which have
a meaning of their own.

Main definitions:

* `documentKey`, `supplyKey` — the key field of every document, and a key for one without;
* `StoreRead` — how the documents of a read are ordered, cut and projected;
* `CollectionRules` — what a collection asks of its documents;
* `DocumentStore` — the operations, with effects in a monad;
* `NativeError.ofStore` — what a failure of a store means.

Main results:

* `NativeError.ofStore_constraint` — exactly the two codes of rules are constraint violations.
-/

set_option autoImplicit false

namespace DataAccess

/-- The key field of every document. -/
def documentKey : String := "_id"

/-- The value that a record holds in a field, unless it is null. -/
def Record.held? (doc : Record) (field : String) : Option Json :=
  match doc.get? field with
  | some v => if v.isNull then none else some v
  | none => none

/-- A document with a key: its own, or else a new one in its place. -/
def supplyKey {m : Type → Type} [Monad m] (freshKey : m String) (doc : Record) : m Record :=
  match doc.held? documentKey with
  | some _ => return doc
  | none => return doc.insert documentKey (.string (← freshKey))

/-- How the documents of a read are ordered, cut and projected. -/
structure StoreRead where
  sort : List SortField
  skip : Nat
  limit : Option Nat
  /-- The fields to return; the key is always among them. -/
  projection : Option (List String)
deriving DecidableEq, Repr

namespace StoreRead

/-- Everything, as stored. -/
def everything : StoreRead := ⟨[], 0, none, none⟩

/-- The first documents. -/
def first (limit : Nat) : StoreRead := { everything with limit := some limit }

/-- Only some fields. -/
def only (fields : List String) : StoreRead := { everything with projection := some fields }

end StoreRead

/-- What a collection asks of its documents. -/
structure CollectionRules where
  /-- Fields whose values must differ between documents. -/
  unique : List String
  /-- Fields that every document must hold. -/
  required : List String
deriving DecidableEq, Repr

/-- A document store, with effects in `m`. -/
structure DocumentStore (m : Type → Type) where
  ping : ExceptT NativeError m Unit
  listCollections : ExceptT NativeError m (List String)
  createCollection : String → CollectionRules → ExceptT NativeError m Unit
  /-- The fields with a unique index. -/
  uniqueIndexes : String → ExceptT NativeError m (List String)
  /-- Stores a document, with a new key if it has none, and returns it. -/
  insertOne : String → Record → ExceptT NativeError m Record
  find : String → Filter → StoreRead → ExceptT NativeError m (List Record)
  count : String → Filter → ExceptT NativeError m Nat
  /-- Writes fields into the first matching document and returns it as it is then. -/
  updateOne : String → Filter → Record → ExceptT NativeError m (Option Record)
  /-- Removes the first matching document; returns how many were removed. -/
  deleteOne : String → Filter → ExceptT NativeError m Nat

namespace NativeError

/-- The code of a value that is not unique. -/
def duplicateKeyCode : String := "11000"

/-- The code of a document that breaks a rule of its collection. -/
def invalidDocumentCode : String := "121"

/-- What a failure of a store means. -/
def ofStore (e : NativeError) : DataError :=
  if e.code = some duplicateKeyCode then .duplicateRecord
  else if e.code = some invalidDocumentCode then .checkConstraintViolation
  else e.unclassified

theorem ofStore_constraint {e : NativeError} :
    e.ofStore.isConstraintViolation = true ↔
      e.code = some duplicateKeyCode ∨ e.code = some invalidDocumentCode := by
  unfold ofStore
  split
  · next h => simp [h, DataError.isConstraintViolation]
  · next h =>
    split
    · next h' => simp [h', DataError.isConstraintViolation]
    · next h' => simp [h, h', unclassified, DataError.isConstraintViolation]

end NativeError

end DataAccess
