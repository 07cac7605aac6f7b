import DataAccess.Schema.Source
import DataAccess.Schema.Cache
import DataAccess.Config
/-
**The schema registry.**  Schemas are fetched from the backend once and cached whole; a request for
some fields gets a projection.  In diagnostic mode a table whose introspection fails is served by
its fallback schema, which is never cached.

Main definitions:

* `SchemaRegistry` — a source, a cache and the rules between them;
* `SchemaRegistry.ofConfig` — the registry that a configuration asks for;
* `SchemaRegistry.cached`, `SchemaRegistry.load` — the two places where a schema comes from;
* `SchemaRegistry.getSchema` — the schema of a table.

Main results:

* `SchemaRegistry.restrict_none`, `SchemaRegistry.restrict_nil` — without fields nothing is cut.
-/

set_option autoImplicit false

namespace DataAccess

/-- A source of schemas behind a cache. -/
structure SchemaRegistry (m : Type → Type) where
  source : SchemaSource m
  cache : Cache m
  /-- How long a cached schema lives, in seconds. -/
  ttl : Nat
  /-- Whether fallback schemas stand in when introspection fails. -/
  diagnosticMode : Bool
  fallbacks : Keyed Schema

namespace SchemaRegistry

variable {m : Type → Type}

/-- The life of a cached schema when nothing else is said: an hour. -/
def defaultTtl : Nat := 3600

/-- A registry with the default life of entries and no fallbacks. -/
def plain (source : SchemaSource m) (cache : Cache m) : SchemaRegistry m :=
  { source, cache, ttl := defaultTtl, diagnosticMode := false, fallbacks := [] }

/-- The registry that a configuration asks for. -/
def ofConfig (source : SchemaSource m) (cache : Cache m) (config : Config) : SchemaRegistry m :=
  { source, cache, ttl := config.schemaCacheTtl, diagnosticMode := config.diagnosticMode
    fallbacks := config.fallbackSchemas }

/-- The registry with a further fallback schema, in diagnostic mode. -/
def withFallback (r : SchemaRegistry m) (s : Schema) : SchemaRegistry m :=
  { r with diagnosticMode := true, fallbacks := r.fallbacks.insert s.table s }

/-- The key of a table's cache entry. -/
def cacheKey (table : String) : String := "schema:" ++ table

/-- A schema restricted to the requested fields, if any are requested. -/
def restrict (s : Schema) : Option (List String) → Schema
  | some fields => if fields.isEmpty then s else s.project fields
  | none => s

@[simp] theorem restrict_none (s : Schema) : restrict s none = s := rfl

@[simp] theorem restrict_nil (s : Schema) : restrict s (some []) = s := rfl

/-- The fallback schema of a table, in diagnostic mode. -/
def fallback? (r : SchemaRegistry m) (table : String) : Option Schema :=
  if r.diagnosticMode then r.fallbacks.get? table else none

variable [Monad m]

/-- The cached schema of a table; an entry that is not a schema counts as missing. -/
def cached (r : SchemaRegistry m) (table : String) : m (Option Schema) := do
  let entry ← r.cache.get (cacheKey table)
  return entry >>= Schema.ofJson?

/-- Fetches a schema from the source and caches it; a schema without columns counts as missing. -/
def load (r : SchemaRegistry m) (table : String) : ExceptT DataError m Schema := do
  let introspected ← ExceptT.lift (r.source.introspect table).run
  let found : Outcome Schema := do
    let s ← introspected
    if s.columns.isEmpty then throw (.schemaNotFound table)
    return s
  -- only what the source itself described is cached
  match found with
  | .ok s =>
    ExceptT.lift (r.cache.set (cacheKey table) s.toJson r.ttl)
    return s
  | .error e =>
    match r.fallback? table with
    | some s => return s
    | none => throw e

/-- The schema of a table, restricted to some fields and the primary key if fields are given. -/
def getSchema (r : SchemaRegistry m) (table : String) (fields : Option (List String)) :
    ExceptT DataError m Schema := do
  if table = "" then throw (.validation "Table name not provided")
  match ← ExceptT.lift (r.cached table) with
  | some s => return restrict s fields
  | none => return restrict (← r.load table) fields

end SchemaRegistry

end DataAccess
