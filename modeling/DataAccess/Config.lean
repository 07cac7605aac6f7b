import DataAccess.Schema.Codec
import DataAccess.Json.Reader
/-
**Configuration.**  A JSON document names the backend and a few limits; everything but the backend
has a default.  The document is checked once, when it is read.

Main definitions:

* `Backend` — the supported backends;
* `Config`, `Config.ofBackend` — the settings and their defaults;
* `Config.validate` — the rules that every configuration in use obeys;
* `Config.parse` — reading and checking a document;
* `Config.toJson`, `Config.ofJson?` — the serialised form.

Main results:

* `Config.limits_of_validate` — a valid configuration has `0 < defaultLimit ≤ maxLimit`;
* `Config.validate_ofBackend` — the defaults are valid for every backend.
-/

set_option autoImplicit false

namespace DataAccess

/-- A supported backend. -/
inductive Backend
  | postgres
  | mysql
  | mssql
  | mongodb
deriving DecidableEq, Repr

namespace Backend

/-- The backends under their names. -/
def names : List (String × Backend) :=
  [("postgres", .postgres), ("mysql", .mysql), ("mssql", .mssql), ("mongodb", .mongodb)]

/-- The name of a backend. -/
def name : Backend → String
  | .postgres => "postgres"
  | .mysql => "mysql"
  | .mssql => "mssql"
  | .mongodb => "mongodb"

/-- Whether a backend speaks SQL. -/
def isSql : Backend → Bool
  | .mongodb => false
  | _ => true

end Backend

/-- The settings. -/
structure Config where
  backend : Backend
  /-- Rows on a page when the caller sets no limit. -/
  defaultLimit : Nat
  /-- The greatest accepted limit. -/
  maxLimit : Nat
  /-- How long a cached schema lives, in seconds. -/
  schemaCacheTtl : Nat
  /-- The timestamp column that a delete sets instead of removing the row. -/
  softDeleteColumn : Option String
  /-- Fields that are checked for uniqueness wherever a table has them. -/
  identityFields : List String
  /-- Whether fallback schemas stand in when introspection fails. -/
  diagnosticMode : Bool
  fallbackSchemas : Keyed Schema
  /-- Relations for backends without foreign keys. -/
  documentRelations : List Relation
  /-- The address of the live backend. -/
  databaseUrl : Option String
  /-- The database that holds the collections, if not the one in the address. -/
  databaseName : Option String
  maxConnections : Nat
  /-- How long to wait for a connection, in seconds. -/
  acquireTimeout : Nat
deriving DecidableEq, Repr

namespace Config

/-- The defaults for a backend. -/
def ofBackend (backend : Backend) : Config :=
  { backend, defaultLimit := 20, maxLimit := 1000, schemaCacheTtl := 3600
    softDeleteColumn := none, identityFields := [], diagnosticMode := false, fallbackSchemas := []
    documentRelations := [], databaseUrl := none, databaseName := none, maxConnections := 5
    acquireTimeout := 30 }

/-- The longest accepted life of a cached schema: thirty days. -/
def maxSchemaCacheTtl : Nat := 30 * 24 * 60 * 60

/-- Refuses fallback schemas that are stored under another name or make no sense. -/
def checkFallbacks : Keyed Schema → Outcome Unit
  | [] => .ok ()
  | (table, schema) :: rest => do
    if table ≠ schema.table then
      throw (.config s!"fallback schema keyed {table} describes table {schema.table}")
    match schema.validateStructure with
    | .ok () => checkFallbacks rest
    | .error e => throw (.config (s!"fallback schema {table}: " ++ e.message))

/-- The rules of a configuration, in the order in which they are reported. -/
def validate (c : Config) : Outcome Unit := do
  if c.defaultLimit = 0 then throw (.config "default_limit must be > 0")
  if c.maxLimit < c.defaultLimit then
    throw (.config s!"default_limit {c.defaultLimit} exceeds max_limit {c.maxLimit}")
  if c.schemaCacheTtl = 0 then throw (.config "schema_cache_ttl_secs must be > 0")
  if maxSchemaCacheTtl < c.schemaCacheTtl then
    throw (.config s!"schema_cache_ttl_secs {c.schemaCacheTtl} exceeds {maxSchemaCacheTtl}")
  if c.maxConnections = 0 then throw (.config "max_connections must be > 0")
  if c.databaseName.isSome && c.backend.isSql then
    throw (.config (s!"database_name applies to document backends, not " ++ c.backend.name))
  checkFallbacks c.fallbackSchemas

theorem validate_ofBackend (backend : Backend) : (ofBackend backend).validate = .ok () := by
  cases backend <;> rfl

theorem limits_of_validate {c : Config} (h : c.validate = .ok ()) :
    0 < c.defaultLimit ∧ c.defaultLimit ≤ c.maxLimit := by
  by_cases zero : c.defaultLimit = 0
  · simp [validate, zero, throw, throwThe, MonadExceptOf.throw, bind, Except.bind] at h
  · by_cases large : c.maxLimit < c.defaultLimit
    · simp [validate, zero, large, throw, throwThe, MonadExceptOf.throw, bind,
        Except.bind] at h
    · omega

/-! ### The serialised form -/

/-- The names of the members. -/
def memberNames : List String :=
  ["database_type", "default_limit", "max_limit", "schema_cache_ttl_secs", "soft_delete_column",
   "identity_fields", "diagnostic_mode", "fallback_schemas", "document_relations", "database_url",
   "database_name", "max_connections", "acquire_timeout_secs"]

/-- An optional text as a value. -/
def optionalText (s : Option String) : Json := (s.map Json.string).getD .null

/-- The serialised form of the settings. -/
def toJson (c : Config) : Json :=
  .object
    [("database_type", .string c.backend.name), ("default_limit", .nat c.defaultLimit),
     ("max_limit", .nat c.maxLimit), ("schema_cache_ttl_secs", .nat c.schemaCacheTtl),
     ("soft_delete_column", optionalText c.softDeleteColumn),
     ("identity_fields", stringsJson c.identityFields),
     ("diagnostic_mode", .bool c.diagnosticMode),
     ("fallback_schemas", .object (c.fallbackSchemas.map fun (k, s) => (k, s.toJson))),
     ("document_relations", .array (c.documentRelations.map Relation.toJson)),
     ("database_url", optionalText c.databaseUrl), ("database_name", optionalText c.databaseName),
     ("max_connections", .nat c.maxConnections), ("acquire_timeout_secs", .nat c.acquireTimeout)]

/-- The settings that a value describes, unchecked. -/
def ofJson? : Decoder Config := fun v => do
  let m ← Members.of? memberNames v
  let base := ofBackend (← m.required "database_type" (decodeName Backend.names))
  some
    { base with
      defaultLimit := ← m.defaulted "default_limit" Json.asUnsigned? base.defaultLimit
      maxLimit := ← m.defaulted "max_limit" Json.asUnsigned? base.maxLimit
      schemaCacheTtl := ← m.defaulted "schema_cache_ttl_secs" Json.asUnsigned? base.schemaCacheTtl
      softDeleteColumn := ← m.nullable "soft_delete_column" Json.asString?
      identityFields := ← m.defaulted "identity_fields" (decodeList Json.asString?) []
      diagnosticMode := ← m.defaulted "diagnostic_mode" Json.asBool? false
      fallbackSchemas := ← m.defaulted "fallback_schemas" (decodeKeyed Schema.ofJson?) []
      documentRelations := ← m.defaulted "document_relations" (decodeList Relation.ofJson?) []
      databaseUrl := ← m.nullable "database_url" Json.asString?
      databaseName := ← m.nullable "database_name" Json.asString?
      maxConnections := ← m.defaulted "max_connections" (decodeBelow (2 ^ 32)) base.maxConnections
      acquireTimeout := ← m.defaulted "acquire_timeout_secs" Json.asUnsigned? base.acquireTimeout }

/-- The settings that a document describes, checked. -/
def parse (text : String) : Outcome Config := do
  match Json.readEntries? text >>= ofJson? with
  | none => throw (.config s!"Invalid config JSON: {Json.malformed}")
  | some c =>
    c.validate
    return c

end Config

end DataAccess
