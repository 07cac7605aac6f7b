import DataAccess.Document.Command
/-
**Databases on a server.**  A document store whose documents live on a server: every operation is
sent as commands, and its result is taken from the replies.

Main definitions:

* `DatabaseServer` — sending commands, with effects in a monad;
* `uniqueFields` — the fields with a unique index out of the indexes of a collection;
* `DatabaseServer.database` — a database of the server as a document store;
* `ScriptedServer` — a server whose replies are written down beforehand.

Main results:

* `uniqueFields_ne_key` — the key field is not among the fields with a unique index;
* `ScriptedServer.exchange_sent` — every command is recorded, whatever the reply.
-/

set_option autoImplicit false

namespace DataAccess

/-- A server of document databases, with effects in `m`. -/
structure DatabaseServer (m : Type → Type) where
  /-- Sends a command to a database. -/
  exchange : String → StoreCommand → m CommandReply
  /-- A key for a document without one. -/
  freshKey : m String

/-! ### Replies of a collection -/

/-- The one field that an index makes unique, unless it is the key field. -/
def uniqueField? (index key : BsonDocument) : Option String :=
  match Keyed.get? index "unique", key with
  | some (.bool true), [(field, _)] => if field = documentKey then none else some field
  | _, _ => none

/-- The fields with a unique index of their own. -/
def uniqueFields (indexes : List BsonDocument) : Except NativeError (List String) := do
  let found ← indexes.mapM fun index =>
    CommandReply.expect do
      some (uniqueField? index (← (Keyed.get? index "key").bind Bson.asDocument?))
  return found.filterMap id

theorem uniqueFields_ne_key {index key : BsonDocument} {field : String}
    (h : uniqueField? index key = some field) : field ≠ documentKey := by
  unfold uniqueField? at h
  split at h
  · split at h
    · simp at h
    · next ne => simpa using (Option.some.inj h) ▸ ne
  · simp at h

/-- The names out of a list of collections, in order. -/
def collectionNames (collections : List BsonDocument) : Except NativeError (List String) := do
  let names ← collections.mapM fun c =>
    CommandReply.expect ((Keyed.get? c "name").bind Bson.asString?)
  return names.mergeSort fun a b => decide (a ≤ b)

/-- The count out of what was found. -/
def countOf : List BsonDocument → Except NativeError Nat
  | [] => .ok 0
  | d :: _ => CommandReply.expect ((Keyed.get? d "n").bind Bson.asCount?)

namespace DatabaseServer

variable {m : Type → Type} [Monad m]

/-- Sends a command and takes the result from its reply. -/
def ask {α : Type} (s : DatabaseServer m) (database : String) (c : StoreCommand)
    (result : CommandReply → Except NativeError α) : ExceptT NativeError m α :=
  ExceptT.mk do return result (← s.exchange database c)

/-- The documents of a read; a count of documents to skip must fit a signed 64-bit word. -/
def find (s : DatabaseServer m) (database name : String) (filter : Filter) (read : StoreRead) :
    ExceptT NativeError m (List Record) := do
  -- refused before anything is sent
  if StoreCommand.greatestCount < read.skip then throw CommandReply.malformed
  let found ← s.ask database (.find name (Bson.ofFilter filter) read) CommandReply.batch
  return found.map Bson.toFields

/-- A database of the server. -/
def database (s : DatabaseServer m) (database : String) : DocumentStore m where
  ping := do
    let _ ← s.ask database .ping CommandReply.done
  listCollections :=
    s.ask database .listCollections fun r => r.batch.bind collectionNames
  createCollection name rules := do
    let _ ← s.ask database (.create name rules.required) CommandReply.done
    rules.unique.forM fun field => do
      let _ ← s.ask database (.createIndex name field) CommandReply.done
  uniqueIndexes name :=
    s.ask database (.listIndexes name) fun r => r.batch.bind uniqueFields
  insertOne name doc := do
    let doc ← ExceptT.lift (supplyKey s.freshKey doc)
    let _ ← s.ask database (.insert name (Bson.ofFields doc)) CommandReply.written
    return doc
  find := s.find database
  count name filter :=
    s.ask database (.count name (Bson.ofFilter filter)) fun r => r.batch.bind countOf
  updateOne name filter fields := do
    let fields := Bson.ofFields (Keyed.swapErase fields documentKey)
    let found ← s.ask database (.update name (Bson.ofFilter filter) fields) CommandReply.updated
    return found.map Bson.toFields
  deleteOne name filter :=
    s.ask database (.delete name (Bson.ofFilter filter)) CommandReply.written

end DatabaseServer

/-! ### Scripted servers -/

/-- A server with prepared replies. -/
structure ScriptedServer where
  /-- The replies to come; when there are none left, a command succeeds without fields. -/
  replies : List CommandReply
  /-- The commands that were sent, each with the name of its database. -/
  sent : List (String × StoreCommand)

namespace ScriptedServer

/-- The reply to a command, and the server after it. -/
def exchange (s : ScriptedServer) (database : String) (c : StoreCommand) :
    CommandReply × ScriptedServer :=
  (s.replies.head?.getD (.fields [] none),
    { s with replies := s.replies.tail, sent := s.sent ++ [(database, c)] })

@[simp] theorem exchange_sent (s : ScriptedServer) (database : String) (c : StoreCommand) :
    (s.exchange database c).2.sent = s.sent ++ [(database, c)] := rfl

/-- The server as a part of a larger state; `freshKey` is the key of every document without one. -/
def inState {σ : Type} (part : σ → ScriptedServer) (update : ScriptedServer → σ → σ)
    (freshKey : String) : DatabaseServer (StateM σ) where
  exchange database c := fun w =>
    let (reply, s) := (part w).exchange database c
    (reply, update s w)
  freshKey := return freshKey

end ScriptedServer

end DataAccess
