import DataAccess.Cli.Arguments
import DataAccess.Cli.Error
import DataAccess.Cli.Files
import DataAccess.Engine.Connect
/-
**The commands.**  Compiling requests and creating statements work without a backend, on schemas
out of a file; performing an operation connects to the configured one.  Every command answers with
one JSON value, also when it fails.

Main definitions:

* `CommandRunner` — the files, drivers and cache that commands work with;
* `parseParam` — a parameter out of a `name=value` argument;
* `CommandRunner.compile`, `CommandRunner.ddl`, `CommandRunner.exec`, `CommandRunner.checkConfig` —
  the commands;
* `CommandRunner.run` — a command with its answer;
* `CliAnswer.toJson` — the value that is shown.

Main results:

* `parseParam_nameless` — a parameter must have a name.
-/

set_option autoImplicit false

namespace DataAccess

/-- What commands work with, with effects in `m`. -/
structure CommandRunner (m : Type → Type) where
  files : FileReader m
  drivers : Drivers m
  cache : Cache m

/-- The answer of a command. -/
abbrev CliAnswer := Except CliError Json

/-- The value that is shown. -/
def CliAnswer.toJson : CliAnswer → Json
  | .ok data => .object [("status", .string "ok"), ("data", data)]
  | .error e =>
    .object
      [("status", .string "error"), ("code", .string e.code.code), ("message", .string e.message)]

/-- The parameter of a `name=value` argument; the value may hold further signs of equality. -/
def parseParam (raw : String) : Except CliError (String × String) :=
  let malformed : CliError :=
    ⟨.invalidArgument, s!"Invalid --param '{raw}', expected NAME=VALUE"⟩
  match Text.cut '=' raw with
  | some (name, value) => if name = "" then .error malformed else .ok (name, value)
  | none => .error malformed

theorem parseParam_nameless {raw value : String} (h : Text.cut '=' raw = some ("", value)) :
    parseParam raw =
      .error ⟨.invalidArgument, s!"Invalid --param '{raw}', expected NAME=VALUE"⟩ := by
  simp [parseParam, h]

/-- The serialised form of a compiled statement. -/
def CompiledQuery.toJson (q : CompiledQuery) : Json :=
  .object [("sql", .string q.sql), ("params", .array q.params)]

namespace CommandRunner

variable {m : Type → Type} [Monad m]

/-- A step of the library, its error reported as that of a command. -/
def report {α : Type} (step : ExceptT DataError m α) : ExceptT CliError m α :=
  ExceptT.mk do return (← step.run).mapError CliError.ofDataError

/-- The text of a file, or a failure under a code with words in front. -/
def readFile (r : CommandRunner m) (code : CliErrorCode) (before path : String) :
    ExceptT CliError m String :=
  ExceptT.mk do return (← (r.files.read path).run).mapError fun reason => ⟨code, before ++ reason⟩

/-- The configuration in a file. -/
def loadConfig (r : CommandRunner m) (path : String) : ExceptT CliError m Config := do
  let text ← r.readFile .configError
    (DataError.config "Failed to read config: ").message path
  match Config.parse text with
  | .ok config => return config
  | .error e => throw ⟨.configError, e.message⟩

/-- The schemas in a file. -/
def loadSchemas (r : CommandRunner m) (path : String) : ExceptT CliError m SchemaSet := do
  let text ← r.readFile .schemaError "Failed to read schemas: " path
  match SchemaSet.ofText text with
  | .ok set => return set
  | .error e => throw ⟨.schemaError, "Invalid schema file: " ++ e.message⟩

/-- The operation in a file. -/
def loadOperation (r : CommandRunner m) (path : String) : ExceptT CliError m Operation := do
  let text ← r.readFile .invalidArgument "Failed to read operation: " path
  match Operation.ofText? text with
  | some o => return o
  | none => throw ⟨.invalidArgument, "Invalid operation: " ++ Json.malformed⟩

/-- The schema of a table and the checked request of some parameters. -/
def parseRequest (r : CommandRunner m) (config : Config) (schemas : SchemaSet) (table : String)
    (params : Params) : ExceptT DataError m (Schema × Query) := do
  let registry := SchemaRegistry.ofConfig (schemas.source m) r.cache config
  let s ← registry.getSchema table none
  return (s, ← registry.parseQuery config.limits s params)

/-- Compiles a request to the statements that count and read its rows. -/
def compile (r : CommandRunner m) (configPath schemasPath table : String)
    (params : List String) : ExceptT CliError m Json := do
  let config ← r.loadConfig configPath
  let schemas ← r.loadSchemas schemasPath
  let params ← liftExcept (params.mapM parseParam)
  report do
    let (s, q) ← r.parseRequest config schemas table params
    let dialect ← liftExcept config.backend.dialect
    let count ← liftExcept (Statement.count s q.relations q.conditions)
    let select ← liftExcept (Statement.select s q.fields q.relations q.conditions q.sort
      (some ⟨q.limit, q.offset⟩))
    return .object
      [("backend", .string config.backend.name), ("table", .string table),
       ("count", (count.compile dialect).toJson), ("select", (select.compile dialect).toJson)]

/-- The statements that create a table. -/
def ddl (r : CommandRunner m) (configPath schemasPath table : String) :
    ExceptT CliError m Json := do
  let config ← r.loadConfig configPath
  let schemas ← r.loadSchemas schemasPath
  report do
    let (s, _) ← r.parseRequest config schemas table []
    let dialect ← liftExcept config.backend.dialect
    let statements ← liftExcept (dialect.createTable s)
    return .object
      [("backend", .string config.backend.name), ("table", .string table),
       ("statements", stringsJson statements)]

/-- Performs an operation on the configured backend. -/
def exec (r : CommandRunner m) (configPath operationPath : String) :
    ExceptT CliError m Json := do
  let config ← r.loadConfig configPath
  let operation ← r.loadOperation operationPath
  report do
    let e ← Engine.connect r.drivers r.cache config
    return (← e.perform operation).toJson

/-- Checks a configuration and shows its main settings. -/
def checkConfig (r : CommandRunner m) (configPath : String) : ExceptT CliError m Json := do
  let config ← r.loadConfig configPath
  return .object
    [("valid", .bool true), ("database_type", .string config.backend.name),
     ("default_limit", .nat config.defaultLimit), ("max_limit", .nat config.maxLimit),
     ("schema_cache_ttl_secs", .nat config.schemaCacheTtl),
     ("fallback_schemas", .nat config.fallbackSchemas.length)]

/-- Runs a command. -/
def run (r : CommandRunner m) (c : Command) : m CliAnswer :=
  ExceptT.run <| match c with
    | .compile config schemas table params => r.compile config schemas table params
    | .ddl config schemas table => r.ddl config schemas table
    | .exec config operation => r.exec config operation
    | .checkConfig config => r.checkConfig config

end CommandRunner

end DataAccess
