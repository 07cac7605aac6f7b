import DataAccess.Cli.Run
import DataAccess.Engine.Offline
import DataAccess.Proofs.Query.Alike
import DataAccess.Proofs.Query.Compiling
import DataAccess.Proofs.Schema.Interleaving
import DataAccess.Proofs.Sql.Recording
/-
**The dry run of a request.**  A request can be compiled from files, without a backend, and it can be
performed by an engine.  Both resolve the table and check the request in the same words, each with a
cache of its own, and what the one shows is what the other sends: the count, and then the rows if there
are any.

Main definitions:

* `SchemaSet.KeptBy` — a cache that holds nothing but the schemas of a set;
* `SchemaSet.answer` — what a registry over the set answers for a table;
* `CompileInput`, `CompileInput.Reads` — the arguments of the command, and what is read from them;
* `SchemaRegistry.readRequest`, `Query.statements`, `preview` — the reading of a request, its two
  statements, and the texts of these;
* `Rehearsed` — a trace that follows two compiled statements.

Main results:

* `SchemaSet.keptBy_memory` — a cache in memory is such a cache;
* `SchemaRegistry.answers_getSchema` — the cache makes no difference to the schemas;
* `CommandRunner.compile_eq` — the command is the reading of the request and its two statements;
* `SqlDatasource.rehearsed_findMany` — a page is read with these two statements;
* `CommandRunner.compile_rehearses` — **the dry run is the real run**.
-/

set_option autoImplicit false

namespace DataAccess

open DataAccess.Action

variable {ρ : Type}

/-! ### Caches of a set of schemas -/

/-- Whatever the cache has forgotten, what it holds under the key of a table is the schema of the table
in the set.  The cache lives beside a script, which it leaves alone. -/
structure SchemaSet.KeptBy (set : SchemaSet) (cache : Cache (StateM (Script × ρ)))
    (inv : ρ → Prop) : Prop where
  get : ∀ table w, inv w.2 → ∃ entry rest,
    cache.get (SchemaRegistry.cacheKey table) w = (entry, (w.1, rest)) ∧ inv rest ∧
      ∀ value, entry = some value →
        ∃ s, set.find table = .ok s ∧ s.columns.isEmpty = false ∧ value = s.toJson
  set : ∀ table s ttl w, inv w.2 → set.find table = .ok s → s.columns.isEmpty = false →
    ∃ rest, cache.set (SchemaRegistry.cacheKey table) s.toJson ttl w = ((), (w.1, rest)) ∧ inv rest

namespace SchemaSet

/-- A cache in memory with entries for schemas of the set only. -/
def Holds (set : SchemaSet) (cache : MemoryCache) : Prop :=
  ∀ entry ∈ cache, ∃ table s, entry.1 = SchemaRegistry.cacheKey table ∧ set.find table = .ok s ∧
    s.columns.isEmpty = false ∧ entry.2.1 = s.toJson

/-- The cache in memory as the part of a state beside a script. -/
def memory (second : Nat) : Cache (StateM (Script × MemoryCache)) :=
  MemoryCache.inState second Prod.snd fun cache w => (w.1, cache)

/-- A cache in memory keeps to the schemas of a set, at any time. -/
theorem keptBy_memory (set : SchemaSet) (second : Nat) : set.KeptBy (memory second) set.Holds where
  get table w holds := by
    refine ⟨_, _, rfl, ?_, ?_⟩
    · intro entry member
      exact holds entry (MemoryCache.mem_of_mem_read member)
    · intro value found
      obtain ⟨expires, member⟩ := MemoryCache.mem_of_read found
      obtain ⟨table', s, key, known, columns, same⟩ := holds _ member
      rw [SchemaRegistry.cacheKey_injective key]
      exact ⟨s, known, columns, same⟩
  set table s ttl w holds known columns := by
    refine ⟨_, rfl, ?_⟩
    intro entry member
    rcases Keyed.mem_of_mem_insert member with old | rfl
    · exact holds entry old
    · exact ⟨table, s, rfl, known, columns, rfl⟩

/-- What is found in a list of schemas is one of them. -/
theorem mem_of_find_ofList {schemas : List Schema} {table : String} {s : Schema}
    (found : (ofList schemas).find table = .ok s) : s ∈ schemas := by
  have started (schemas : List Schema) : ∀ set : SchemaSet,
      Keyed.get? (schemas.foldl insert set) table = some s →
        s ∈ schemas ∨ Keyed.get? set table = some s := by
    induction schemas with
    | nil => exact fun set given => .inr given
    | cons first rest ih =>
        intro set given
        rcases ih (insert set first) given with later | here
        · exact .inl (List.mem_cons_of_mem _ later)
        · by_cases same : table = first.table
          · rw [insert, same, Keyed.get?_insert_self] at here
            exact .inl (Option.some.inj here ▸ List.mem_cons_self)
          · rw [insert, Keyed.get?_insert_of_ne same] at here
            exact .inr here
  rw [find] at found
  split at found
  · next k given =>
    rw [Except.ok.inj found] at given
    exact (started schemas [] given).resolve_right (by simp)
  · exact absurd found (by simp)

/-- The schemas of a file are written and read back as themselves. -/
theorem built_of_ofText {text : String} {set : SchemaSet} (h : ofText text = .ok set)
    {table : String} {s : Schema} (found : set.find table = .ok s) : s.Built := by
  rw [ofText] at h
  cases read : Json.readEntries? text >>= decodeList Schema.ofJson? with
  | none =>
      rw [read] at h
      exact absurd h (by simp [throw, throwThe, MonadExceptOf.throw])
  | some schemas =>
      rw [read] at h
      obtain ⟨_, -, made⟩ := Outcome.bind_eq_ok.1 h
      obtain ⟨value, -, decoded⟩ := Option.bind_eq_some_iff.1 read
      rw [← Except.ok.inj made] at found
      obtain ⟨v, given⟩ := of_mem_decodeList decoded (mem_of_find_ofList found)
      exact .read given

/-- What a registry over the set answers for a table: the schema of the set, or the fallback of the
configuration when there is none. -/
def answer (set : SchemaSet) (config : Config) (table : String) : Outcome Schema :=
  let standIn (e : DataError) : Outcome Schema :=
    match if config.diagnosticMode then config.fallbackSchemas.get? table else none with
    | some s => .ok s
    | none => .error e
  if table = "" then .error (.validation "Table name not provided")
  else match set.find table with
    | .ok s => if s.columns.isEmpty then standIn (.schemaNotFound table) else .ok s
    | .error e => standIn e

end SchemaSet

namespace SchemaRegistry

/-- **The cache makes no difference**: over a set of schemas every table has one answer, and the script
stays as it is. -/
theorem answers_getSchema {set : SchemaSet} {cache : Cache (StateM (Script × ρ))} {inv : ρ → Prop}
    (kept : set.KeptBy cache inv) (built : ∀ table s, set.find table = .ok s → s.Built)
    (config : Config) (p : Script → Prop) (table : String) :
    Answers (fun w => p w.1 ∧ inv w.2)
      ((ofConfig (set.source _) cache config).getSchema table none) (set.answer config table) := by
  rintro w ⟨held, start⟩
  rw [SchemaSet.answer]
  by_cases nameless : table = ""
  · rw [nameless, runFrom_getSchema_nameless, if_pos rfl]
    exact ⟨w, rfl, held, start⟩
  obtain ⟨entry, rest, read, after, sound⟩ := kept.get table w start
  have got : (ofConfig (set.source _) cache config).cache.get (cacheKey table) w =
      (entry, (w.1, rest)) := read
  have asked : runFrom ((ofConfig (set.source (StateM (Script × ρ))) cache config).source.introspect
      table) (w.1, rest) = (set.find table, (w.1, rest)) := rfl
  rw [runFrom_getSchema _ nameless, got, if_neg nameless]
  cases entry with
  | some value =>
      obtain ⟨s, found, columns, rfl⟩ := sound value rfl
      simp only [Option.bind_eq_bind, Option.bind_some, (built table s found).ofJson?_toJson, found,
        columns, Bool.false_eq_true, if_false]
      exact ⟨_, rfl, held, after⟩
  | none =>
      simp only [Option.bind_eq_bind, Option.bind_none]
      rw [runFrom_load, asked]
      cases found : set.find table with
      | error e => exact ⟨_, rfl, held, after⟩
      | ok s =>
          cases columns : s.columns.isEmpty with
          | true =>
              simp only [columns, if_true]
              exact ⟨_, rfl, held, after⟩
          | false =>
              obtain ⟨stored, write, after⟩ :=
                kept.set table s config.schemaCacheTtl (w.1, rest) after found columns
              have written : (ofConfig (set.source _) cache config).cache.set (cacheKey table) s.toJson
                  (ofConfig (set.source _) cache config).ttl (w.1, rest) = ((), (w.1, stored)) := write
              simp only [columns, Bool.false_eq_true, if_false, written]
              exact ⟨_, rfl, held, after⟩

end SchemaRegistry

/-! ### The command -/

/-- The arguments of the command, with the files that it reads. -/
structure CompileInput where
  files : FileTree
  config : String
  schemas : String
  params : List String

/-- The arguments are read as a valid configuration, a set of schemas and named parameters. -/
structure CompileInput.Reads (input : CompileInput) (config : Config) (set : SchemaSet)
    (params : Params) : Prop where
  config : ∃ text, input.files.read input.config = .ok text ∧ Config.parse text = .ok config
  schemas : ∃ text, input.files.read input.schemas = .ok text ∧ SchemaSet.ofText text = .ok set
  params : input.params.mapM parseParam = .ok params

/-- The reading of a request: its schema and the checked request. -/
def SchemaRegistry.readRequest {m : Type → Type} [Monad m] (r : SchemaRegistry m) (config : Config)
    (table : String) (params : Params) : ExceptT DataError m (Schema × Query) := do
  let s ← r.getSchema table none
  return (s, ← r.parseQuery config.limits s params)

/-- The two statements of a request. -/
def Query.statements (q : Query) (s : Schema) : Outcome (Statement × Statement) := do
  let count ← Statement.count s q.relations q.conditions
  let select ← Statement.select s q.fields q.relations q.conditions q.sort (some ⟨q.limit, q.offset⟩)
  return (count, select)

/-- What is shown of two compiled statements. -/
def Config.shown (config : Config) (table : String) (count select : CompiledQuery) : Json :=
  .object [("backend", .string config.backend.name), ("table", .string table),
    ("count", count.toJson), ("select", select.toJson)]

namespace CommandRunner

section Reading

variable {m : Type → Type} [Monad m] [LawfulMonad m] {r : CommandRunner m} {files : FileTree}
  {path text : String}

theorem readFile_eq (reader : r.files = files.reader) (found : files.read path = .ok text)
    (code : CliErrorCode) (before : String) : r.readFile code before path = pure text := by
  refine ExceptT.ext ?_
  simp [readFile, reader, FileTree.reader, found, Except.mapError]

theorem loadConfig_eq (reader : r.files = files.reader) (found : files.read path = .ok text)
    {config : Config} (parsed : Config.parse text = .ok config) :
    r.loadConfig path = pure config := by
  rw [loadConfig, readFile_eq reader found, pure_bind, parsed]

theorem loadSchemas_eq (reader : r.files = files.reader) (found : files.read path = .ok text)
    {set : SchemaSet} (parsed : SchemaSet.ofText text = .ok set) :
    r.loadSchemas path = pure set := by
  rw [loadSchemas, readFile_eq reader found, pure_bind, parsed]

/-- The command is the reading of the request and its two statements. -/
theorem compile_eq {input : CompileInput} {config : Config} {set : SchemaSet} {params : Params}
    (reader : r.files = input.files.reader) (reads : input.Reads config set params)
    {dialect : Dialect} (relational : config.backend.dialect = .ok dialect) (table : String) :
    r.compile input.config input.schemas table input.params = report (do
      let (s, q) ← (SchemaRegistry.ofConfig (set.source m) r.cache config).readRequest config table
        params
      let (count, select) ← liftExcept (q.statements s)
      return config.shown table (count.compile dialect) (select.compile dialect)) := by
  obtain ⟨_, configText, config_eq⟩ := reads.config
  obtain ⟨_, schemasText, set_eq⟩ := reads.schemas
  have named : (liftExcept (input.params.mapM parseParam) : ExceptT CliError m Params) =
      pure params := by
    rw [reads.params]
    rfl
  have known : (liftExcept (.ok dialect : Outcome Dialect) : ExceptT DataError m Dialect) =
      pure dialect := rfl
  rw [compile, loadConfig_eq reader configText config_eq, pure_bind,
    loadSchemas_eq reader schemasText set_eq, pure_bind, named, pure_bind, relational, known]
  refine congrArg report (bind_congr fun p => ?_)
  obtain ⟨s, q⟩ := p
  dsimp only
  rw [pure_bind, Query.statements, liftExcept_bind, bind_assoc]
  refine bind_congr fun count => ?_
  rw [liftExcept_bind, bind_assoc]
  refine bind_congr fun select => ?_
  change _ = (pure (count, select) : ExceptT DataError m (Statement × Statement)) >>= _
  rw [pure_bind]
  rfl

end Reading

/-- A step of the library is reported with what it comes to. -/
theorem run_report {σ α : Type} (step : Action σ α) (w : σ) :
    (report step).run w = ((step.runFrom w).1.mapError CliError.ofDataError, (step.runFrom w).2) :=
  rfl

end CommandRunner

/-! ### The page -/

/-- A trace follows two compiled statements: the count is sent first, and the rows are read only if there
are any. -/
inductive Rehearsed (count select : CompiledQuery) : List Exchange → Prop
  | failed (e : NativeError) : Rehearsed count select [⟨count, .error e⟩]
  | none {output : QueryOutput} (total : readTotal output.rows = 0) :
      Rehearsed count select [⟨count, .ok output⟩]
  | some {output : QueryOutput} (total : 0 < readTotal output.rows)
      (reply : Except NativeError QueryOutput) :
      Rehearsed count select [⟨count, .ok output⟩, ⟨select, reply⟩]

namespace SqlDatasource

variable {d : SqlDatasource (StateM (Script × ρ))} {s : Schema} {q : Query}

/-- A request whose statements do not compile is refused without a connection. -/
theorem runFrom_findMany_error {e : DataError} (refused : q.statements s = .error e)
    (w : Script × ρ) : runFrom (d.findMany s q.page) w = (.error e, w) := by
  -- the rows are selected under the conditions of the count, so it is the count that fails
  have uncounted : Statement.count s q.relations q.conditions = .error e := by
    rcases Outcome.bind_eq_error.1 refused with first | ⟨count, counted, refused⟩
    · exact first
    · obtain ⟨select, selected⟩ := Statement.select_iff.2 (Statement.count_iff.1 ⟨count, counted⟩)
      rw [selected] at refused
      exact absurd refused (by simp [bind, Except.bind, pure, Except.pure])
  have counted : Statement.count s q.page.relations q.page.conditions = .error e := uncounted
  rw [findMany, counted]
  rfl

/-- Where connections are refused, a request whose statements compile is refused with them. -/
theorem runFrom_findMany_refused {statements : Statement × Statement}
    (compiled : q.statements s = .ok statements) {w : Script × ρ} {reason : String}
    (connector : d.connector = Script.paired) (refused : w.1.refusal = some reason) :
    runFrom (d.findMany s q.page) w = (.error (.connection reason), w) := by
  obtain ⟨count, counted, -⟩ := Outcome.bind_eq_ok.1 compiled
  have paged : Statement.count s q.page.relations q.page.conditions = .ok count := counted
  rw [findMany, paged, connector, runFrom_bind, runFrom_liftExcept]
  dsimp only
  rw [SqlConnector.withConnection, runFrom_bind, runFrom_connect, refused]

/-- A page is read with the two statements of its request. -/
theorem rehearsed_findMany {count select : Statement} (compiled : q.statements s = .ok (count, select))
    {w : Script × ρ} (connector : d.connector = Script.paired) (free : w.1.refusal = none) :
    Records (d.findMany s q.page) w fun log _ =>
      Rehearsed (count.compile d.dialect) (select.compile d.dialect) log := by
  obtain ⟨count', counted, compiled⟩ := Outcome.bind_eq_ok.1 compiled
  obtain ⟨select', selected, compiled⟩ := Outcome.bind_eq_ok.1 compiled
  obtain ⟨rfl, rfl⟩ := Prod.mk.inj (Except.ok.inj compiled)
  have paged : Statement.count s q.page.relations q.page.conditions = .ok count' := counted
  rw [findMany, paged, connector]
  refine Records.withConnection free fun v => ?_
  rw [runCount, bind_assoc]
  refine d.records_runStatement_bind (fun output v => ?_) Rehearsed.failed
  rw [pure_bind]
  by_cases total : readTotal output.rows = 0
  · rw [if_pos total]
    exact Records.pure (.none total)
  · have windowed : Statement.select s q.page.fields q.page.relations q.page.conditions q.page.sort
        (some ⟨q.page.limit.getD d.defaultLimit, q.page.offset.getD 0⟩) = .ok select' := selected
    rw [if_neg total, windowed]
    refine d.records_runStatement_bind (fun rows v => ?_) fun e => .some (Nat.pos_of_ne_zero total) _
    refine (Records.lift (p := fun log _ => log = []) rfl).bind ?_ ?_
    · rintro _ data v - rfl
      exact Records.pure (.some (Nat.pos_of_ne_zero total) _)
    · rintro _ e rfl
      exact .some (Nat.pos_of_ne_zero total) _

end SqlDatasource

/-! ### The dry run and the real run -/

/-- A trace concerns the script only. -/
theorem Recorded.script {w v : Script × ρ} {log : List Exchange} (h : Recorded w log v) :
    Recorded (w.1, ()) log (v.1, ()) :=
  ⟨h.statements, h.replied, h.replies, h.opened, h.refusal, rfl⟩

namespace SchemaRegistry

/-- Registries over one set of schemas read a request alike, each with a cache of its own. -/
theorem answers_readRequest {set : SchemaSet} {cache : Bool → Cache (StateM (Script × ρ))}
    {inv : ρ → Prop} (kept : ∀ i, set.KeptBy (cache i) inv)
    (built : ∀ table s, set.find table = .ok s → s.Built) (config : Config) (p : Script → Prop)
    (table : String) (params : Params) :
    ∃ reading, ∀ i, Answers (fun w => p w.1 ∧ inv w.2)
      ((ofConfig (set.source _) (cache i) config).readRequest config table params) reading := by
  have answers (i : Bool) := answers_getSchema (kept i) built config p
  cases known : set.answer config table with
  | error e =>
      refine ⟨.error e, fun i => ?_⟩
      have schema := answers i table
      rw [known] at schema
      exact schema.bind_error _
  | ok s =>
      obtain ⟨parsed, parses⟩ := exists_answers_parseQuery answers config.limits s params
      refine ⟨(s, ·) <$> parsed, fun i => ?_⟩
      have schema := answers i table
      rw [known] at schema
      exact schema.bind ((parses i).map _)

end SchemaRegistry

/-- A page is the reading of a request, and the page. -/
theorem Engine.perform_findMany {m : Type → Type} [Monad m] [LawfulMonad m] (e : Engine m)
    (table : String) (params : Params) :
    e.perform (.findMany table params) =
      e.registry.readRequest e.config table params >>= fun p =>
        .page <$> e.datasource.findMany p.1 p.2.page := by
  simp only [perform, schema, query, SchemaRegistry.readRequest, bind_assoc, pure_bind]

/-- The two compiled statements of a request that was read. -/
def preview (dialect : Dialect) (reading : Outcome (Schema × Query)) :
    Outcome (CompiledQuery × CompiledQuery) := do
  let (s, q) ← reading
  let (count, select) ← q.statements s
  return (count.compile dialect, select.compile dialect)

/-- The command shows the preview of what it reads. -/
theorem CommandRunner.result_compile {r : CommandRunner (StateM (Script × ρ))} {input : CompileInput}
    {config : Config} {set : SchemaSet} {params : Params} (reader : r.files = input.files.reader)
    (reads : input.Reads config set params) {dialect : Dialect}
    (relational : config.backend.dialect = .ok dialect) {table : String} {w v : Script × ρ}
    {reading : Outcome (Schema × Query)}
    (run : runFrom ((SchemaRegistry.ofConfig (set.source _) r.cache config).readRequest config table
      params) w = (reading, v)) :
    ((r.compile input.config input.schemas table input.params).run w).1 =
      ((fun p => config.shown table p.1 p.2) <$> preview dialect reading).mapError
        CliError.ofDataError := by
  rw [compile_eq reader reads relational, run_report, runFrom_bind, run]
  cases reading with
  | error e => rfl
  | ok p =>
      obtain ⟨s, q⟩ := p
      dsimp only
      rw [runFrom_bind, runFrom_liftExcept]
      cases compiled : q.statements s with
      | error e =>
          simp only [preview, compiled, bind, Except.bind]
          rfl
      | ok pair =>
          simp only [preview, compiled, bind, Except.bind]
          rfl

/-- The engine sends the preview of what it reads. -/
theorem Engine.rehearsed_findMany {e : Engine (StateM (Script × ρ))}
    {d : SqlDatasource (StateM (Script × ρ))} (sql : e.datasource = d.datasource)
    (connector : d.connector = Script.paired) {table : String} {params : Params} {w v : Script × ρ}
    {reading : Outcome (Schema × Query)}
    (run : runFrom (e.registry.readRequest e.config table params) w = (reading, v)) :
    let done := runFrom (e.perform (.findMany table params)) w
    match preview d.dialect reading with
    | .error e => done.1 = .error e ∧ done.2 = v
    | .ok (count, select) =>
      match v.1.refusal with
      | none => ∃ log, Recorded v log done.2 ∧ Rehearsed count select log
      | some reason => done.1 = .error (.connection reason) ∧ done.2 = v := by
  rw [perform_findMany, runFrom_bind, run, sql]
  cases reading with
  | error e => exact ⟨rfl, rfl⟩
  | ok p =>
      obtain ⟨s, q⟩ := p
      dsimp only
      rw [runFrom_map]
      cases compiled : q.statements s with
      | error e =>
          have unread : runFrom (d.datasource.findMany s q.page) v = (.error e, v) :=
            SqlDatasource.runFrom_findMany_error compiled v
          simp only [preview, compiled, bind, Except.bind, unread]
          exact ⟨rfl, trivial⟩
      | ok pair =>
          obtain ⟨count, select⟩ := pair
          simp only [preview, compiled, bind, Except.bind, pure, Except.pure]
          cases refused : v.1.refusal with
          | none => exact SqlDatasource.rehearsed_findMany compiled connector refused
          | some reason =>
              have unread : runFrom (d.datasource.findMany s q.page) v =
                  (.error (.connection reason), v) :=
                SqlDatasource.runFrom_findMany_refused compiled connector refused
              rw [unread]
              exact ⟨rfl, rfl⟩

/-- **The dry run is the real run.**  Where the command shows a count and a select, the engine sends the
count first, and the select exactly if the count is answered with a positive total; where the command
fails in the library, the engine fails with the same error and sends nothing. -/
theorem CommandRunner.compile_rehearses {r : CommandRunner (StateM (Script × ρ))}
    {input : CompileInput} {config : Config} {set : SchemaSet} {params : Params}
    {d : SqlDatasource (StateM (Script × ρ))} {now : StateM (Script × ρ) Timestamp}
    {cache : Cache (StateM (Script × ρ))} {inv : ρ → Prop}
    (reader : r.files = input.files.reader) (reads : input.Reads config set params)
    (relational : SqlDatasource.ofConfig config Script.paired now = .ok d)
    (dry : set.KeptBy r.cache inv) (real : set.KeptBy cache inv) (table : String)
    {w₀ w : Script × ρ} (start₀ : inv w₀.2) (start : inv w.2) :
    let shown := ((r.compile input.config input.schemas table input.params).run w₀).1
    let engine : Engine (StateM (Script × ρ)) :=
      ⟨.ofConfig (set.source _) cache config, d.datasource, config⟩
    let done := runFrom (engine.perform (.findMany table params)) w
    (∃ count select, shown = .ok (config.shown table count select) ∧
      match w.1.refusal with
      | none => ∃ log, Recorded (w.1, ()) log (done.2.1, ()) ∧ Rehearsed count select log
      | some reason => done.1 = .error (.connection reason) ∧ done.2.1 = w.1) ∨
    ∃ e, shown = .error (.ofDataError e) ∧ done.1 = .error e ∧ done.2.1 = w.1 := by
  intro shown engine done
  obtain ⟨_, -, schemas⟩ := reads.schemas
  have built (table : String) (s : Schema) (found : set.find table = .ok s) : s.Built :=
    SchemaSet.built_of_ofText schemas found
  obtain ⟨dialect, known, made⟩ := Outcome.bind_eq_ok.1 relational
  obtain rfl := Except.ok.inj made
  have caches : ∀ i : Bool, set.KeptBy (bif i then cache else r.cache) inv := by
    intro i
    cases i
    · exact dry
    · exact real
  -- both readings have one result, and that of the engine leaves the script as it is
  obtain ⟨reading, alike⟩ := SchemaRegistry.answers_readRequest caches built config (fun _ => True)
    table params
  obtain ⟨reading', steady⟩ := SchemaRegistry.answers_readRequest caches built config (· = w.1)
    table params
  obtain ⟨_, dryRead, -⟩ := alike false w₀ ⟨trivial, start₀⟩
  obtain ⟨v, realRead, same, -⟩ := steady true w ⟨rfl, start⟩
  obtain rfl : reading' = reading := by
    rw [← (alike true).result ⟨trivial, start⟩, realRead]
  have shows : shown = _ := result_compile reader reads known dryRead
  have sends := engine.rehearsed_findMany rfl rfl realRead
  cases announced : preview dialect reading' with
  | error e =>
      rw [announced] at shows sends
      exact .inr ⟨e, shows, sends.1, (congrArg Prod.fst sends.2).trans same⟩
  | ok statements =>
      obtain ⟨count, select⟩ := statements
      rw [announced] at shows sends
      refine .inl ⟨count, select, shows, ?_⟩
      rw [← same]
      cases refused : v.1.refusal with
      | none =>
          rw [refused] at sends
          obtain ⟨log, recorded, rehearsed⟩ := sends
          exact ⟨log, recorded.script, rehearsed⟩
      | some reason =>
          rw [refused] at sends
          exact ⟨sends.1, congrArg Prod.fst sends.2⟩

/-! ### A request for users -/

/-- Users with a key. -/
def keyed : Schema :=
  .ofColumns "users" [{ Column.plain "id" .number with nullable := false, primaryKey := true }] []

def configText : String := "\x7b\"database_type\":\"postgres\"\x7d"

def schemasText : String :=
  "[\x7b\"table\":\"users\",\"columns\":[\x7b\"field\":\"id\",\"type\":\"number\",\"primary_key\":true\x7d]\x7d]"

/-- The command for the users with a greater key. -/
def laterUsers : CompileInput where
  files := [(["config"], configText), (["schemas"], schemasText)]
  config := "config"
  schemas := "schemas"
  params := ["id[gt]=3", "sort=id.asc"]

theorem reads_laterUsers : laterUsers.Reads (.ofBackend .postgres) [("users", keyed)]
    [("id[gt]", "3"), ("sort", "id.asc")] := by
  have config : (Config.parse configText).toOption = some (.ofBackend .postgres) := by
    decide +kernel
  have schemas : (SchemaSet.ofText schemasText).toOption = some [("users", keyed)] := by
    decide +kernel
  have configRead : (laterUsers.files.read "config").toOption = some configText := by
    decide +kernel
  have schemasRead : (laterUsers.files.read "schemas").toOption = some schemasText := by
    decide +kernel
  have params : (laterUsers.params.mapM parseParam).toOption =
      some [("id[gt]", "3"), ("sort", "id.asc")] := by
    decide +kernel
  rw [Outcome.toOption_eq_some] at config schemas configRead schemasRead params
  exact ⟨⟨_, configRead, config⟩, ⟨_, schemasRead, schemas⟩, params⟩

/-- The command with its files and a cache in memory. -/
def runner : CommandRunner (StateM (Script × MemoryCache)) where
  files := laterUsers.files.reader
  drivers := Drivers.offline (pure ⟨0, 0⟩)
  cache := SchemaSet.memory 0

/-- The datasource of a scripted server. -/
def scriptedServer : SqlDatasource (StateM (Script × MemoryCache)) where
  backend := .postgres
  dialect := .postgres
  connector := Script.paired
  defaultLimit := 20
  identityFields := []
  now := pure ⟨0, 0⟩

/-- An engine over it with a cache of its own. -/
def scriptedEngine : Engine (StateM (Script × MemoryCache)) where
  registry := .ofConfig (SchemaSet.source _ [("users", keyed)]) (SchemaSet.memory 7)
    (.ofBackend .postgres)
  datasource := scriptedServer.datasource
  config := .ofBackend .postgres

/-- A server that counts one user. -/
def oneUser : Script × MemoryCache :=
  ({ Script.empty with replies := [.ok (.fetched [[("total", .nat 1)]])] }, [])

/-- The two statements for later users are shown, and both are sent. -/
theorem rehearsed_laterUsers : ∃ count select log,
    ((runner.compile "config" "schemas" "users" laterUsers.params).run (Script.empty, [])).1 =
      .ok ((Config.ofBackend .postgres).shown "users" count select) ∧
    Recorded (oneUser.1, ()) log ((runFrom (scriptedEngine.perform (.findMany "users"
      [("id[gt]", "3"), ("sort", "id.asc")])) oneUser).2.1, ()) ∧
    Rehearsed count select log ∧ log.length = 2 := by
  have shows : ((runner.compile "config" "schemas" "users" laterUsers.params).run
      (Script.empty, [])).1.isOk = true := by
    decide +kernel
  have sent : (runFrom (scriptedEngine.perform (.findMany "users"
      [("id[gt]", "3"), ("sort", "id.asc")])) oneUser).2.1.statements.length = 2 := by
    decide +kernel
  have empty : SchemaSet.Holds [("users", keyed)] [] := by
    intro entry member
    exact absurd member (by simp)
  have rehearses := @CommandRunner.compile_rehearses _ runner _ _ _ _ scriptedServer (pure ⟨0, 0⟩) _ _
    rfl reads_laterUsers rfl (SchemaSet.keptBy_memory _ 0) (SchemaSet.keptBy_memory _ 7) "users"
    (Script.empty, []) oneUser empty empty
  rcases rehearses with ⟨count, select, shown, log, recorded, rehearsed⟩ | ⟨e, failed, -⟩
  · refine ⟨count, select, log, shown, recorded, rehearsed, ?_⟩
    have statements := sent.symm.trans (congrArg List.length recorded.statements)
    rw [List.length_append, List.length_map] at statements
    exact (statements.trans (Nat.zero_add _)).symm
  · exact absurd (shows.symm.trans (congrArg Except.isOk failed)) (by simp [Except.isOk, Except.toBool])

end DataAccess
