import DataAccess.Proofs.Document.Distinct
import DataAccess.Proofs.Engine.Serving
import DataAccess.Proofs.Engine.Writes
import DataAccess.Proofs.Process
import DataAccess.Proofs.Schema.Interleaving
/-
**An engine step by step.**  The engine over documents in memory asks a store and a cache that other
clients use as well.  Each of their operations takes place at once, and other clients take their turns
between them.  The engine is the same one, over operations that are broken into these steps.  An update
looks at the collections several times, and the last step that it takes writes the fields into the
document as it is then.

Main definitions:

* `DocumentStore.stepwise`, `Cache.stepwise` — a store and a cache whose operations are single steps;
* `Setting.stepwise` — the engine over them;
* `World.InfersCached` — nothing but inferred schemas is cached for a table;
* `Change`, `Engine.changeRecord` — an update, and the schema and the fields that it comes to;
* `Change.Applies` — the effect of an update on the collections.

Main results:

* `Engine.row_changeRecord` — the update is the change that is made, as its record;
* `Setting.alone_updateRecord` — **uninterrupted, the steps of an update are the update**;
* `Setting.reads_schema` — asking for a schema leaves the collections, and returns an inferred one;
* `Setting.reads_requireExisting`, `Setting.reads_requireUnique` — so do the checks;
* `Setting.commits_changeRecord` — **an update writes its fields in one step, the last one**.
-/

set_option autoImplicit false

namespace DataAccess

open DocumentDatasource

/-! ### Single steps -/

/-- An operation that takes place at once. -/
def atomically {σ ε α : Type} (x : ExceptT ε (StateM σ) α) : ExceptT ε (Process σ) α :=
  ExceptT.mk (.atomic x.run)

/-- The store whose operations are single steps. -/
def DocumentStore.stepwise {σ : Type} (store : DocumentStore (StateM σ)) :
    DocumentStore (Process σ) where
  ping := atomically store.ping
  listCollections := atomically store.listCollections
  createCollection name rules := atomically (store.createCollection name rules)
  uniqueIndexes name := atomically (store.uniqueIndexes name)
  insertOne name doc := atomically (store.insertOne name doc)
  find name filter read := atomically (store.find name filter read)
  count name filter := atomically (store.count name filter)
  updateOne name filter fields := atomically (store.updateOne name filter fields)
  deleteOne name filter := atomically (store.deleteOne name filter)

/-- The cache whose operations are single steps. -/
def Cache.stepwise {σ : Type} (cache : Cache (StateM σ)) : Cache (Process σ) where
  get key := .atomic (cache.get key)
  set key value ttl := .atomic (cache.set key value ttl)

namespace Setting

variable (g : Setting)

/-- The datasource over the collections, step by step. -/
def stepwiseDocuments : DocumentDatasource (Process World) :=
  .ofConfig g.config g.store.stepwise (pure g.now)

/-- The engine whose schemas are inferred from the collections, step by step. -/
def stepwise : Engine (Process World) :=
  .ofDatasource g.stepwiseDocuments.datasource g.cache.stepwise g.config

end Setting

/-! ### What an update comes to -/

/-- An update with the schema that it was checked against and the fields as they were validated. -/
structure Change where
  schema : Schema
  record : Record
  /-- What the caller receives. -/
  row : Record

/-- The update of a record, with what it was checked against. -/
def Engine.changeRecord {m : Type → Type} [Monad m] (e : Engine m) (table : String) (id : Json)
    (data : Record) : ExceptT DataError m Change := do
  let s ← e.schema table
  let record ← liftExcept (s.validateData data).outcome
  let primaryKey ← liftExcept s.primaryKeyField
  e.requireExisting s primaryKey id
  e.requireUnique s record (some id)
  let row ← e.datasource.updateOne s id record
  return ⟨s, record, row⟩

/-- The update is the change that is made, as its record. -/
theorem Engine.row_changeRecord {m : Type → Type} [Monad m] [LawfulMonad m] (e : Engine m)
    (table : String) (id : Json) (data : Record) :
    Change.row <$> e.changeRecord table id data = e.updateRecord table id data := by
  simp only [changeRecord, updateRecord, map_bind, map_pure, bind_pure]

/-- The first of some documents, as it is shaped. -/
def Schema.shapeFirst (s : Schema) : List Record → Outcome (Option Record)
  | row :: _ => some <$> s.shapeRow [] row
  | [] => .ok none

namespace DocumentDatasource

/-- Without relations, the filter of a condition is compiled without asking for anything. -/
theorem exists_conditionFilter (s : Schema) (c : WhereCondition) : ∃ filter : Outcome Filter,
    ∀ {m : Type → Type} [Monad m] [LawfulMonad m] (d : DocumentDatasource m),
      d.conditionFilter s [] c = liftExcept filter := by
  cases path : c.path? with
  | none =>
      refine ⟨(s.columnType c.column).map (Filter.ofCondition c.column · c.operator c.value), ?_⟩
      intro m _ _ d
      rw [conditionFilter, path]
      cases s.columnType c.column with
      | error e => exact liftExcept_error_bind e _
      | ok type => exact pure_bind _ _
  | some pieces =>
      obtain ⟨path', field⟩ := pieces
      by_cases deep : path'.toList.contains '.'
      · refine ⟨.error (.validation (s!"Filtering on {c.column} spans more than one relation, " ++
          "which document backends do not support")), ?_⟩
        intro m _ _ d
        rw [conditionFilter, path]
        simp only [relatedFilter, if_pos deep]
        exact liftExcept_error_bind _ _
      · refine ⟨.error (.unknownRelation path' s.table), ?_⟩
        intro m _ _ d
        rw [conditionFilter, path]
        simp only [relatedFilter, if_neg deep]
        rfl

/-- The record with a key is looked for with one read. -/
theorem exists_findOne_byKey (s : Schema) (key : String) (id : Json) : ∃ filter : Outcome Filter,
    ∀ {m : Type → Type} [Monad m] [LawfulMonad m] (d : DocumentDatasource m),
      d.findOne s (.byKey key id) = (do
        let filter ← liftExcept filter
        let rows ← ask (d.store.find s.table filter (.first 1))
        liftExcept (s.shapeFirst rows) : ExceptT DataError m (Option Record)) := by
  obtain ⟨filter, compiled⟩ := exists_conditionFilter s ⟨key, .equals, id⟩
  refine ⟨filter, ?_⟩
  intro m _ _ d
  have finish (row : Record) : d.finishRow s none [] row = liftExcept (s.shapeRow [] row) := by
    simp only [finishRow, attachRelations, List.foldlM_nil, pure_bind]
    rfl
  simp only [findOne, RecordQuery.byKey, compileFilter, List.mapM_cons, List.mapM_nil, compiled,
    bind_assoc, pure_bind, Filter.all]
  refine bind_congr fun filter => bind_congr fun rows => ?_
  cases rows with
  | nil => rfl
  | cons row rest =>
      simp only [finish, Schema.shapeFirst]
      cases s.shapeRow [] row with
      | error e => exact liftExcept_error_bind e _
      | ok shaped => exact pure_bind _ _

end DocumentDatasource

/-! ### Uninterrupted steps -/

namespace Call

variable {σ α β : Type}

/-- Uninterrupted, the steps are an operation. -/
def Mirrors (x : Call σ α) (y : Action σ α) : Prop := x.run.alone = y.run

theorem mirrors_pure (a : α) : Mirrors (pure a : Call σ α) (pure a) := rfl

theorem mirrors_throw (e : DataError) : Mirrors (throw e : Call σ α) (throw e) := rfl

theorem mirrors_liftExcept (x : Outcome α) : Mirrors (liftExcept x : Call σ α) (liftExcept x) := by
  cases x <;> rfl

/-- An operation of a store is its single step. -/
theorem mirrors_ask (operation : ExceptT NativeError (StateM σ) α) :
    Mirrors (ask (atomically operation)) (ask operation) := rfl

theorem Mirrors.bind {x : Call σ α} {y : Action σ α} {f : α → Call σ β} {h : α → Action σ β}
    (hx : Mirrors x y) (hf : ∀ a, Mirrors (f a) (h a)) : Mirrors (x >>= f) (y >>= h) := by
  rw [Mirrors, ExceptT.run_bind, ExceptT.run_bind, Process.alone_bind, hx]
  refine bind_congr fun result => ?_
  cases result with
  | error e => rfl
  | ok a => exact hf a

end Call

namespace Setting

open DataAccess.Call

variable (g : Setting)

/-- Uninterrupted, the steps of a request are taken on the cache and the source themselves. -/
theorem alone_interpret {α : Type} (steps : Steps α) :
    (steps.interpret g.stepwise.registry).alone = steps.interpret g.engine.registry := by
  induction steps with
  | done a => rfl
  | read key next ih =>
      rw [Steps.interpret, Steps.interpret, Process.alone_bind]
      exact bind_congr ih
  | write key value ttl next ih =>
      rw [Steps.interpret, Steps.interpret, Process.alone_bind]
      exact bind_congr fun _ => ih
  | ask table next ih =>
      rw [Steps.interpret, Steps.interpret, Process.alone_bind]
      exact bind_congr ih

theorem mirrors_schema (table : String) :
    Mirrors (g.stepwise.schema table) (g.engine.schema table) := by
  have steps := g.alone_interpret (g.engine.registry.stepwise.getSchema table none).run
  rw [SchemaRegistry.interpret_getSchema g.engine.registry] at steps
  rw [Mirrors, Engine.schema, Engine.schema, ← steps]
  exact congrArg Process.alone (SchemaRegistry.interpret_getSchema g.stepwise.registry _ _).symm

theorem mirrors_requireExisting (s : Schema) (key : String) (id : Json) :
    Mirrors (g.stepwise.requireExisting s key id) (g.engine.requireExisting s key id) := by
  obtain ⟨filter, lookUp⟩ := exists_findOne_byKey s key id
  have found : Mirrors (g.stepwiseDocuments.findOne s (.byKey key id))
      (g.documents.findOne s (.byKey key id)) := by
    rw [lookUp, lookUp]
    exact (mirrors_liftExcept _).bind fun _ => (mirrors_ask _).bind fun _ => mirrors_liftExcept _
  refine found.bind fun row => ?_
  cases row with
  | none => exact mirrors_throw _
  | some row => exact mirrors_pure _

theorem mirrors_checkCandidates (s : Schema) (excluded : Option Json) :
    ∀ candidates, Mirrors (g.stepwiseDocuments.checkCandidates s excluded candidates)
      (g.documents.checkCandidates s excluded candidates)
  | [] => mirrors_pure _
  | (column, v) :: rest => by
      rw [checkCandidates, checkCandidates]
      refine (mirrors_ask _).bind fun count => ?_
      by_cases taken : 0 < count
      · simp only [if_pos taken]
        exact mirrors_pure _
      · simp only [if_neg taken]
        exact mirrors_checkCandidates s excluded rest

theorem mirrors_updateOne (s : Schema) (id : Json) (record : Record) :
    Mirrors (g.stepwiseDocuments.updateOne s id record) (g.documents.updateOne s id record) := by
  rw [updateOne, updateOne]
  by_cases empty : (record.swapErase documentKey).isEmpty
  · simp only [if_pos empty]
    rfl
  · simp only [if_neg empty]
    refine (mirrors_ask _).bind fun updated => ?_
    cases updated with
    | none => exact mirrors_throw _
    | some doc => exact mirrors_liftExcept _

/-- **Uninterrupted, the steps of an update are the update.** -/
theorem alone_updateRecord (table : String) (id : Json) (data : Record) :
    (g.stepwise.updateRecord table id data).run.alone =
      (g.engine.updateRecord table id data).run := by
  refine (g.mirrors_schema table).bind fun s => ?_
  refine (mirrors_liftExcept _).bind fun record => (mirrors_liftExcept _).bind fun key => ?_
  refine (g.mirrors_requireExisting s key id).bind fun _ => ?_
  refine Mirrors.bind ?_ fun _ => g.mirrors_updateOne s id record
  exact (g.mirrors_checkCandidates s _ _).bind fun _ => mirrors_liftExcept _

end Setting

/-! ### The steps that only look -/

/-- Nothing but inferred schemas is cached for a table. -/
def World.InfersCached (table : String) (w : World) : Prop :=
  ∀ value expires s, w.cache.get? (SchemaRegistry.cacheKey table) = some (value, expires) →
    Schema.ofJson? value = some s → s.IsInferred table

namespace Setting

open DataAccess.Call

variable (g : Setting) {inv : World → Prop}

/-- Whatever is read from the collections, reading leaves them. -/
theorem reads_find (name : String) (filter : Filter) (read : StoreRead) :
    Reads inv World.store (fun _ => True)
      (ask (g.stepwiseDocuments.store.find name filter read)) :=
  fun _ holds => ⟨holds, rfl, fun _ _ => trivial⟩

theorem reads_count (name : String) (filter : Filter) :
    Reads inv World.store (fun _ => True) (ask (g.stepwiseDocuments.store.count name filter)) :=
  fun _ holds => ⟨holds, rfl, fun _ _ => trivial⟩

theorem reads_uniqueIndexes (name : String) :
    Reads inv World.store (fun _ => True) (ask (g.stepwiseDocuments.store.uniqueIndexes name)) :=
  fun _ holds => ⟨holds, rfl, fun _ _ => trivial⟩

/-- Introspection looks at a sample and at the indexes. -/
theorem reads_introspect (table : String) :
    Reads inv World.store (fun s => s.columns.isEmpty = false → s.IsInferred table)
      (g.stepwiseDocuments.introspect table) := by
  refine (g.reads_find table _ _).bind fun sample _ => ?_
  refine (g.reads_uniqueIndexes table).bind fun unique _ => reads_pure fun filled => ?_
  refine ⟨unique, _, sample, ?_, rfl⟩
  rintro rfl
  exact absurd filled (by simp [Schema.inferred, Schema.ofColumns])

/-- Looking into the cache keeps its other entries, and finds what was cached. -/
theorem keeps_cached (table : String) :
    (g.stepwise.registry.cache.get (SchemaRegistry.cacheKey table)).Keeps
      (World.InfersCached table) World.store
      fun entry => ∀ s, entry >>= Schema.ofJson? = some s → s.IsInferred table := by
  intro w holds
  refine ⟨fun value expires s found => holds value expires s ?_, rfl, fun s decoded => ?_⟩
  · have left : (MemoryCache.read w.cache g.second (SchemaRegistry.cacheKey table)).2.get?
        (SchemaRegistry.cacheKey table) = some (value, expires) := found
    rw [MemoryCache.read] at left
    split at left
    · exact left
    · split at left
      · exact left
      · rw [Keyed.get?_erase, if_pos rfl] at left
        exact absurd left (by simp)
  · obtain ⟨entry, read, decoded⟩ := Option.bind_eq_some_iff.1 decoded
    have found : (MemoryCache.read w.cache g.second (SchemaRegistry.cacheKey table)).1 =
        some entry := read
    rw [MemoryCache.read_fst] at found
    obtain ⟨⟨value, expires⟩, stored, live⟩ := Option.bind_eq_some_iff.1 found
    obtain ⟨-, same⟩ := Option.ite_none_right_eq_some.1 live
    obtain rfl := Option.some.inj same
    exact holds value expires s stored decoded

/-- An inferred schema may be cached. -/
theorem keeps_caching {table : String} {s : Schema} (inferred : s.IsInferred table) (ttl : Nat) :
    (g.stepwise.registry.cache.set (SchemaRegistry.cacheKey table) s.toJson ttl).Keeps
      (World.InfersCached table) World.store fun _ => True := by
  intro w _
  refine ⟨fun value expires s' found decoded => ?_, rfl, trivial⟩
  have written : (MemoryCache.write w.cache g.second (SchemaRegistry.cacheKey table) s.toJson ttl).get?
      (SchemaRegistry.cacheKey table) = some (value, expires) := found
  rw [MemoryCache.write, Keyed.get?_insert_self] at written
  obtain ⟨rfl, -⟩ := Prod.mk.inj (Option.some.inj written)
  rw [inferred.ofJson?_toJson] at decoded
  rwa [← Option.some.inj decoded]

/-- **Asking for a schema leaves the collections, and returns an inferred one.** -/
theorem reads_schema {table : String} (alone : g.stepwise.registry.fallback? table = none) :
    Reads (World.InfersCached table) World.store (·.IsInferred table) (g.stepwise.schema table) := by
  by_cases nameless : table = ""
  · subst nameless
    exact reads_throw _ _
  have refused (e : DataError) : g.stepwise.registry.substitute table none e = .error e := by
    rw [SchemaRegistry.substitute, alone]
  rw [Reads, Engine.schema, ← SchemaRegistry.interpret_getSchema,
    SchemaRegistry.stepwise_getSchema _ nameless, Steps.interpret]
  refine (g.keeps_cached table).bind fun entry cached => ?_
  cases decoded : entry >>= Schema.ofJson? with
  | some s => exact reads_pure (cached s decoded)
  | none =>
      simp only [SchemaRegistry.fetch, Steps.interpret]
      refine Process.Keeps.bind (g.reads_introspect table) fun answer shown => ?_
      cases answer with
      | error e =>
          simp only [refused, Steps.interpret]
          exact reads_throw _ e
      | ok s =>
          cases empty : s.columns.isEmpty with
          | true =>
              simp only [empty, if_true, refused, Steps.interpret]
              exact reads_throw _ _
          | false =>
              have inferred := shown s rfl empty
              simp only [empty, Bool.false_eq_true, if_false, Steps.interpret]
              exact (g.keeps_caching inferred _).bind fun _ _ => reads_pure inferred

theorem reads_requireExisting (s : Schema) (key : String) (id : Json) :
    Reads inv World.store (fun _ => True) (g.stepwise.requireExisting s key id) := by
  obtain ⟨filter, lookUp⟩ := exists_findOne_byKey s key id
  have found : Reads inv World.store (fun _ => True)
      (g.stepwiseDocuments.findOne s (.byKey key id)) := by
    rw [lookUp]
    refine (reads_liftExcept_any _).bind fun filter _ => ?_
    exact (g.reads_find _ _ _).bind fun rows _ => reads_liftExcept_any _
  refine found.bind fun row _ => ?_
  cases row with
  | none => exact reads_throw _ _
  | some row => exact reads_pure trivial

theorem reads_checkCandidates (s : Schema) (excluded : Option Json) :
    ∀ candidates, Reads inv World.store (fun _ => True)
      (g.stepwiseDocuments.checkCandidates s excluded candidates)
  | [] => reads_pure trivial
  | (column, v) :: rest => by
      rw [checkCandidates]
      refine (g.reads_count _ _).bind fun count _ => ?_
      split
      · exact reads_pure trivial
      · exact reads_checkCandidates s excluded rest

theorem reads_requireUnique (s : Schema) (data : Record) (excluded : Option Json) :
    Reads inv World.store (fun _ => True) (g.stepwise.requireUnique s data excluded) :=
  (g.reads_checkCandidates s excluded _).bind fun _ _ => reads_liftExcept_any _

end Setting

/-! ### The step that writes -/

/-- A store in a world with nothing else. -/
def MemoryStore.world (s : MemoryStore) : World := ⟨s, [], 0⟩

/-- A document with what is stored of the fields of an update. -/
def Change.apply (c : Change) (doc : Record) : Record :=
  Collection.assignAll doc (c.schema.toStored (c.record.swapErase documentKey))

/-- The effect of an update: its fields were accepted by an inferred schema, and what is stored of them
was written into the one document with the key, as it was then. -/
structure Change.Applies (c : Change) (table key : String) (data : Record) (v u : MemoryStore) :
    Prop where
  inferred : c.schema.IsInferred table
  valid : c.schema.validateData data = .ok c.record
  written : ∃ found before after,
    Setting.Exchanged v.world u.world table (.string key) found (c.apply found) before after

/-- The fields that were accepted are written as they are stored, the key is not, and the others stay. -/
theorem Change.Applies.get?_apply {c : Change} {table key : String} {data : Record}
    {v u : MemoryStore} (applies : c.Applies table key data v u)
    (distinct : (Keyed.keys data).Nodup) (doc : Record) (field : String) :
    (c.apply doc).get? field = if field = documentKey then doc.get? field
      else ((c.record.get? field).map (c.schema.storedForm field)).or (doc.get? field) := by
  have stored := Schema.written_of_valid applies.inferred distinct applies.valid
  rw [apply, Collection.get?_assignAll doc stored.keys]
  split
  · rfl
  · next other => rw [stored.fields field other]

/-- A text equals a key exactly if it is the key. -/
theorem accepts_textKey {doc : Record} {key : String} :
    Filter.accepts doc (keyFilter (.string key)) = true ↔
      doc.get? documentKey = some (.string key) := by
  rw [accepts_keyFilter]
  constructor
  · intro equal
    obtain ⟨x, held, same⟩ := held?_of_equal rfl equal
    obtain ⟨found, filled⟩ := Record.held?_eq_some_iff.1 held
    rw [found]
    cases x with
    | number m =>
        obtain ⟨n, text, -⟩ := Filter.equal_number.1 same
        exact absurd text (by simp)
    | _ => rw [same_text ((Filter.equal_same filled (by simp)).1 same)]
  · intro found
    rw [found, equal_text_iff]

/-- An update of the store by a text writes into the one document with that key. -/
theorem MemoryStore.exchanged_update {v u : MemoryStore} {table key : String} {fields doc : Record}
    (updated : v.update table (keyFilter (.string key)) fields = (.ok (some doc), u)) :
    ∃ found before after, Setting.Exchanged v.world u.world table (.string key) found
      (Collection.assignAll found fields) before after := by
  obtain ⟨before, found, after, held, first, -, rfl, checked, collections⟩ :=
    collection_update updated
  have own : found.get? documentKey = some (.string key) :=
    accepts_textKey.1 (by simpa using List.find?_some first)
  -- the key is never written, so the check compared the old key with the others
  have same := (Collection.get?_assignAll_key found fields).trans own
  exact ⟨found, before, after, held, own, Collection.key_free_of_check checked same,
    documents_replaced collections⟩

/-- What an update returns, by the document that was written. -/
def Schema.changed (s : Schema) (record : Record) (id : Json) : Option Record → Outcome Change
  | some doc => (s.shapeRow [] doc).map fun row => ⟨s, record, row⟩
  | none => .error (.recordNotFound id.bareText)

/-- An operation of the store that ends a call is the step that counts. -/
theorem Call.commits_ask {σ α β ν : Type} {inv : σ → Prop} {view : σ → ν} {commit : β → ν → ν → Prop}
    {operation : ExceptT NativeError (StateM σ) α} {f : α → Call σ β} (result : α → Outcome β)
    (ends : ∀ a, f a = liftExcept (result a)) (kept : ∀ w, inv w → inv (operation.run w).2)
    (writes : ∀ w a b, (operation.run w).1 = .ok a → result a = .ok b →
      commit b (view w) (view (operation.run w).2)) :
    (ask (atomically operation) >>= f).run.Commits inv view commit := by
  have run : (ask (atomically operation) >>= f).run =
      .step (fun w => (operation.run w).2) fun w =>
        .done (((operation.run w).1.mapError NativeError.ofStore) >>= result) := by
    rw [ExceptT.run_bind]
    refine congrArg (Process.step _) (funext fun w => ?_)
    simp only [Process.bind, pure]
    cases (operation.run w).1 with
    | error e => rfl
    | ok a =>
        simp only [Except.mapError, ends, bind, Except.bind]
        cases result a <;> rfl
  rw [run]
  intro w holds
  refine ⟨kept w holds, .inr ⟨_, rfl, fun b returned => ?_⟩⟩
  obtain ⟨a, answered, given⟩ := Outcome.bind_eq_ok.1 returned
  refine writes w a b ?_ given
  cases answer : (operation.run w).1 with
  | error e => exact absurd answered (by simp [answer, Except.mapError])
  | ok a' =>
      rw [answer] at answered
      exact congrArg Except.ok (Except.ok.inj answered)

namespace Setting

open DataAccess.Call

variable (g : Setting)

/-- **An update writes its fields in one step, the last one.** -/
theorem commits_changeRecord {table : String} (alone : g.stepwise.registry.fallback? table = none)
    (key : String) (data : Record) :
    (g.stepwise.changeRecord table (.string key) data).run.Commits (World.InfersCached table)
      World.store fun c => c.Applies table key data := by
  refine (g.reads_schema alone).commits fun s inferred => ?_
  refine (reads_liftExcept fun record valid => Verdict.eq_ok_of_outcome valid).commits
    fun record valid => ?_
  refine (reads_liftExcept_any _).commits fun primaryKey _ => ?_
  refine (g.reads_requireExisting s primaryKey _).commits fun _ _ => ?_
  refine (g.reads_requireUnique s record _).commits fun _ _ => ?_
  change (g.stepwiseDocuments.updateOne s (.string key) record >>= _).run.Commits _ _ _
  rw [updateOne]
  by_cases empty : (record.swapErase documentKey).isEmpty
  · simp only [if_pos empty]
    intro c returned
    exact absurd returned (by simp)
  · simp only [if_neg empty, bind_assoc, inferred.table_eq]
    refine commits_ask (s.changed record (.string key)) ?_ (fun w holds => holds) ?_
    · intro updated
      cases updated with
      | none => rfl
      | some doc =>
          change liftExcept (s.shapeRow [] doc) >>= _ = liftExcept ((s.shapeRow [] doc).map _)
          cases s.shapeRow [] doc with
          | error e => rfl
          | ok row => rfl
    · intro w updated c stored returned
      cases updated with
      | none => exact absurd returned (by simp [Schema.changed])
      | some doc =>
          obtain ⟨row, -, rfl⟩ := Outcome.map_eq_ok.1 returned
          have update : w.store.update table (keyFilter (.string key))
              (s.toStored (record.swapErase documentKey)) = (.ok (some doc), _) := Prod.ext stored rfl
          exact ⟨inferred, valid, MemoryStore.exchanged_update update⟩

end Setting

end DataAccess
