import DataAccess.Document.Bson
/-
**Commands of a document database.**  Every operation of a store is a command with named arguments,
and a reply is a document with named fields, of which each command needs some.

Main definitions:

* `StoreCommand` — the commands;
* `StoreCommand.name`, `StoreCommand.collection?`, `StoreCommand.arguments` — as they are sent;
* `StoreCommand.toJson` — as they are shown;
* `CommandReply` — a reply;
* `CommandReply.done`, `CommandReply.written`, `CommandReply.batch`, `CommandReply.updated` — what a
  command takes from its reply.

Main results:

* `CommandReply.done_failed` — a failed command has no result.
-/

set_option autoImplicit false

namespace DataAccess

/-- A command to a document database. -/
inductive StoreCommand
  | ping
  | listCollections
  | create (collection : String) (required : List String)
  /-- A unique index on one field. -/
  | createIndex (collection field : String)
  | listIndexes (collection : String)
  | insert (collection : String) (document : BsonDocument)
  | find (collection : String) (filter : BsonDocument) (read : StoreRead)
  | count (collection : String) (filter : BsonDocument)
  | update (collection : String) (filter fields : BsonDocument)
  | delete (collection : String) (filter : BsonDocument)

namespace StoreCommand

/-- The name of a command. -/
def name : StoreCommand → String
  | ping => "ping"
  | listCollections => "listCollections"
  | create _ _ => "create"
  | createIndex _ _ => "createIndexes"
  | listIndexes _ => "listIndexes"
  | insert _ _ => "insert"
  | find _ _ _ => "find"
  | count _ _ => "aggregate"
  | update _ _ _ => "findAndModify"
  | delete _ _ => "delete"

/-- The collection that a command works on. -/
def collection? : StoreCommand → Option String
  | ping | listCollections => none
  | create c _ | createIndex c _ | listIndexes c | insert c _ | find c _ _ | count c _
  | update c _ _ | delete c _ => some c

/-- The sign of a direction. -/
def order : Direction → Bson
  | .ascending => .int32 1
  | .descending => .int32 (-1)

/-- The greatest count that a signed 64-bit word holds. -/
def greatestCount : Nat := 2 ^ 63 - 1

/-- The arguments of a read; what was not asked for is left out. -/
def readArguments (read : StoreRead) : BsonDocument :=
  (if read.sort.isEmpty then [] else
    [("sort", .document (Keyed.ofEntries (read.sort.map fun (field, d) => (field, order d))))]) ++
  (if read.skip = 0 then [] else [("skip", .int64 read.skip)]) ++
  (match read.limit with
    | some limit => [("limit", .int64 (min limit greatestCount : Nat))]
    | none => []) ++
  (match read.projection with
    | some fields =>
      [("projection", .document (Keyed.ofEntries (fields.map fun field => (field, .int32 1))))]
    | none => [])

/-- The rule that documents hold some fields. -/
def requiredRule (fields : List String) : Bson :=
  .document
    [("$jsonSchema", .document
      [("bsonType", .string "object"), ("required", .array (fields.map .string))])]

/-- The arguments of a command. -/
def arguments : StoreCommand → BsonDocument
  | ping | listCollections | listIndexes _ => []
  | create _ required =>
    if required.isEmpty then [] else [("validator", requiredRule required)]
  | createIndex _ field =>
    [("indexes", .array
      [.document [("key", .document [(field, .int32 1)]), ("unique", .bool true)]])]
  | insert _ document => [("documents", .array [.document document])]
  | find _ filter read => ("filter", .document filter) :: readArguments read
  | count _ filter =>
    [("pipeline", .array
      [.document [("$match", .document filter)],
       .document
        [("$group", .document [("_id", .int32 1), ("n", .document [("$sum", .int32 1)])])]])]
  | update _ filter fields =>
    [("query", .document filter), ("update", .document [("$set", .document fields)]),
     ("new", .bool true)]
  | delete _ filter =>
    [("deletes", .array [.document [("q", .document filter), ("limit", .int32 1)]])]

/-- The serialised form of an argument; the fields of a sort are a list, since their order counts. -/
def argumentJson : String × Bson → String × Json
  | ("sort", .document fields) =>
    ("sort", .array (fields.map fun (field, v) => .array [.string field, v.extended true]))
  | (key, v) => (key, v.extended true)

/-- The serialised form of a command to a database, its values in canonical extended JSON. -/
def toJson (database : String) (c : StoreCommand) : Json :=
  .object ([("command", .string c.name), ("db", .string database)] ++
    (match c.collection? with
      | some collection => [("collection", .string collection)]
      | none => []) ++
    c.arguments.map argumentJson)

end StoreCommand

/-! ### Replies -/

/-- The reply to a command. -/
inductive CommandReply
  /-- The command failed. -/
  | failed (failure : NativeError)
  /-- The command was carried out, apart from a write that may have been refused. -/
  | fields (fields : BsonDocument) (refused : Option NativeError)

namespace CommandReply

/-- The failure of a reply that lacks what its command needs. -/
def malformed : NativeError := ⟨none, "<driver>"⟩

/-- A value that a reply must have. -/
def expect {α : Type} (v : Option α) : Except NativeError α :=
  match v with
  | some a => .ok a
  | none => .error malformed

/-- The fields of a reply. -/
def done : CommandReply → Except NativeError BsonDocument
  | failed e => .error e
  | fields d _ => .ok d

@[simp] theorem done_failed (e : NativeError) : (failed e).done = .error e := rfl

/-- The number of documents that a write changed, unless it was refused. -/
def written : CommandReply → Except NativeError Nat
  | failed e | fields _ (some e) => .error e
  | fields d none => expect ((Keyed.get? d "n").bind Bson.asCount?)

/-- The documents that a read found. -/
def batch (r : CommandReply) : Except NativeError (List BsonDocument) := do
  let fields ← r.done
  expect do
    let cursor ← (← Keyed.get? fields "cursor").asDocument?
    (← (← Keyed.get? cursor "firstBatch").asItems?).mapM Bson.asDocument?

/-- The document after an update, if one matched. -/
def updated (r : CommandReply) : Except NativeError (Option BsonDocument) := do
  match Keyed.get? (← r.done) "value" with
  | some .null => .ok none
  | some (.document d) => .ok (some d)
  | _ => .error malformed

/-- The reply whose only batch these documents are. -/
def ofBatch (documents : List Bson) : CommandReply :=
  fields [("cursor", .document [("firstBatch", .array documents)])] none

end CommandReply

end DataAccess
