import DataAccess.Engine.Basic
import DataAccess.Document.Memory
import DataAccess.Schema.Cache
import DataAccess.Proofs.Action
import DataAccess.Proofs.Document.Inference
import DataAccess.Proofs.Document.Keys
/-
**An engine over documents in memory.**  The engine works on a world: the collections, the cached
schemas and the number of keys it handed out.  Everything else is fixed while it works.

Main definitions:

* `World`, `World.documents` — the state, and the documents of a collection;
* `Setting`, `Setting.documents`, `Setting.engine` — what is fixed, and the datasource and the engine.

Main results:

* `Setting.runFrom_find`, `Setting.runFrom_insertOne`, … — the operations of the store in a world;
* `Setting.settled_compileFilter`, `Setting.settled_finishRow`, `Setting.settled_uniqueCheck` — reads are
  settled as long as the collections stay;
* `Setting.runFrom_findOne_byKey` — the record with a key.
-/

set_option autoImplicit false

namespace DataAccess

/-! ### Worlds and settings -/

/-- The state that an engine over documents in memory works on. -/
structure World where
  store : MemoryStore
  cache : MemoryCache
  /-- The number of keys handed out so far. -/
  issued : Nat

/-- The documents of a collection. -/
def World.documents (w : World) (name : String) : List Record := w.store.documents name

/-- What is fixed while the engine works. -/
structure Setting where
  config : Config
  /-- The second at which the cache is asked. -/
  second : Nat
  /-- The time that a stamp shows. -/
  now : Timestamp
  /-- The keys in the order in which they are handed out. -/
  key : Nat → String

namespace Setting

/-- The next key. -/
def freshKey (g : Setting) : StateM World String := fun w =>
  (g.key w.issued, { w with issued := w.issued + 1 })

/-- The collections of the world. -/
def store (g : Setting) : DocumentStore (StateM World) :=
  MemoryStore.inState World.store (fun store w => { w with store }) g.freshKey

/-- The cached schemas of the world. -/
def cache (g : Setting) : Cache (StateM World) :=
  MemoryCache.inState g.second World.cache fun cache w => { w with cache }

/-- The datasource over the collections. -/
def documents (g : Setting) : DocumentDatasource (StateM World) :=
  .ofConfig g.config g.store (pure g.now)

/-- The engine whose schemas are inferred from the collections. -/
def engine (g : Setting) : Engine (StateM World) :=
  .ofDatasource g.documents.datasource g.cache g.config

/-- An engine with the default configuration, whose keys are tally marks. -/
def tally : Setting :=
  { config := .ofBackend .mongodb, second := 0, now := ⟨0, 0⟩
    key := fun n => String.ofList (List.replicate (n + 1) 'k') }

variable (g : Setting)

open DataAccess.Action DocumentDatasource

/-! ### The store in a world -/

theorem runFrom_find (name : String) (filter : Filter) (read : StoreRead) (w : World) :
    runFrom (ask (g.store.find name filter read)) w = (.ok (w.store.find name filter read), w) :=
  rfl

/-- A document without a key gets the next one before it is inserted. -/
theorem runFrom_insertOne {doc : Record} (keyless : doc.held? documentKey = none) (name : String)
    (w : World) :
    runFrom (ask (g.store.insertOne name doc)) w =
      match w.store.insert name (doc.insert documentKey (.string (g.key w.issued))) with
      | (result, store) =>
        (result.mapError NativeError.ofStore, { w with store, issued := w.issued + 1 }) := by
  have supplied : supplyKey g.freshKey doc w =
      (doc.insert documentKey (.string (g.key w.issued)), { w with issued := w.issued + 1 }) := by
    rw [supplyKey, keyless]
    rfl
  change (match (match supplyKey g.freshKey doc w with
    | (doc, v) => match v.store.insert name doc with
      | (result, store) => ((result, { v with store }) : Except NativeError Record × World)) with
    | (result, v) => (result.mapError NativeError.ofStore, v)) = _
  rw [supplied]

theorem runFrom_updateOne (name : String) (filter : Filter) (fields : Record) (w : World) :
    runFrom (ask (g.store.updateOne name filter fields)) w =
      match w.store.update name filter fields with
      | (result, store) => (result.mapError NativeError.ofStore, { w with store }) := rfl

section Reads

variable {g} {inv : World → Prop} {store : MemoryStore} (holds : ∀ w, inv w → w.store = store)

include holds

theorem answers_find (name : String) (filter : Filter) (read : StoreRead) :
    Answers inv (ask (g.documents.store.find name filter read))
      (.ok (store.find name filter read)) :=
  fun w h => ⟨w, by rw [← holds w h]; rfl, h⟩

theorem answers_count (name : String) (filter : Filter) :
    Answers inv (ask (g.documents.store.count name filter)) (.ok (store.count name filter)) :=
  fun w h => ⟨w, by rw [← holds w h]; rfl, h⟩

theorem settled_relatedFilter (s : Schema) (relations : List RelationNode) (c : WhereCondition)
    (path field : String) : Settled inv (g.documents.relatedFilter s relations c path field) := by
  rw [relatedFilter]
  split
  · exact settled_throw_bind _ _
  · dsimp only
    split
    · exact settled_throw _
    · refine (settled_liftExcept _).bind fun _ => Settled.bind ⟨_, answers_find holds _ _ _⟩ fun _ => ?_
      exact settled_pure _

theorem settled_compileFilter (s : Schema) (conditions : List WhereCondition)
    (relations : List RelationNode) :
    Settled inv (g.documents.compileFilter s conditions relations) := by
  refine Settled.bind (Settled.mapM (fun c => ?_) conditions) fun _ => settled_pure _
  rw [conditionFilter]
  split
  · exact (settled_liftExcept _).bind fun _ => settled_pure _
  · exact settled_relatedFilter holds s relations c _ _

theorem settled_attachRelations (relations : List RelationNode) (row : Record) :
    Settled inv (g.documents.attachRelations relations row) := by
  have joins (n : RelationNode) (key : Option Json) : Settled inv (g.documents.related n key) := by
    rw [related.eq_def]
    split
    · exact settled_pure _
    · exact settled_pure _
    · exact Settled.bind ⟨_, answers_find holds _ _ _⟩ fun _ => settled_pure _
  have step (state : Record × Keyed Record) (n : RelationNode) :
      Settled inv (g.documents.attachRelation state n) :=
    (joins n _).bind fun _ => settled_pure _
  exact (Settled.foldlM step relations (row, [])).bind fun _ => settled_pure _

theorem settled_finishRow (s : Schema) (fields : Option (List String))
    (relations : List RelationNode) (row : Record) :
    Settled inv (g.documents.finishRow s fields relations row) :=
  (settled_attachRelations holds relations row).bind fun _ => settled_liftExcept _

theorem settled_findOne (s : Schema) (q : RecordQuery) :
    Settled inv (g.documents.findOne s q) := by
  refine (settled_compileFilter holds s q.conditions q.relations).bind ?_
  intro filter
  refine Settled.bind ⟨_, answers_find holds _ _ _⟩ ?_
  intro rows
  cases rows with
  | nil => exact settled_pure _
  | cons row _ => exact (settled_finishRow holds s _ _ row).bind fun _ => settled_pure _

theorem settled_findMany (s : Schema) (q : PageQuery) : Settled inv (g.documents.findMany s q) := by
  refine (settled_compileFilter holds s q.conditions q.relations).bind ?_
  intro filter
  refine Settled.bind ⟨_, answers_count holds _ _⟩ ?_
  intro total
  split
  · exact settled_pure _
  · refine Settled.bind ⟨_, answers_find holds _ _ _⟩ ?_
    intro rows
    refine (Settled.mapM (settled_finishRow holds s q.fields q.relations) rows).bind ?_
    intro data
    exact settled_pure _

theorem settled_count (s : Schema) (conditions : List WhereCondition)
    (relations : List RelationNode) : Settled inv (g.documents.count s conditions relations) := by
  refine (settled_compileFilter holds s conditions relations).bind ?_
  intro filter
  exact ⟨_, answers_count holds _ _⟩

theorem settled_checkCandidates (s : Schema) (excluded : Option Json) :
    ∀ candidates, Settled inv (g.documents.checkCandidates s excluded candidates)
  | [] => settled_pure _
  | (column, v) :: rest => by
      rw [checkCandidates]
      refine Settled.bind ⟨_, answers_count holds _ _⟩ fun count => ?_
      split
      · exact settled_pure _
      · exact settled_checkCandidates s excluded rest

theorem settled_uniqueCheck (s : Schema) (data : Record) (excluded : Option Json) :
    Settled inv (g.documents.uniqueCheck s data excluded) :=
  settled_checkCandidates holds s excluded _

end Reads

/-! ### The record with a key -/

/-- Under an inferred schema, asking for a key is filtering by it. -/
theorem compileFilter_byKey {s : Schema} {table : String} (inferred : s.IsInferred table)
    (id : Json) :
    g.documents.compileFilter s (RecordQuery.byKey documentKey id).conditions [] =
      pure (keyFilter id) := by
  have flat : (⟨documentKey, .equals, id⟩ : WhereCondition).path? = none := by
    change Text.cutLast '.' documentKey = none
    decide
  have type : s.columnType documentKey = .ok .string := by
    rw [Schema.columnType, inferred.column?_key]
    rfl
  have asked : Filter.ofCondition documentKey .string .equals id = keyFilter id := by
    have kept : coerceWrite .string id .native = id :=
      coerceWrite_untyped (by decide) (by decide) (by decide) id .native
    simp only [Filter.ofCondition, Filter.asked, kept, keyFilter]
  have condition : g.documents.conditionFilter s [] ⟨documentKey, .equals, id⟩ =
      pure (keyFilter id) := by
    rw [conditionFilter, flat, type, ← asked]
    rfl
  rw [compileFilter, RecordQuery.byKey, List.mapM_cons, List.mapM_nil, condition]
  rfl

/-- The first document with a key, as it is shaped. -/
theorem runFrom_findOne_byKey {s : Schema} {table : String} (inferred : s.IsInferred table)
    (id : Json) (w : World) :
    runFrom (g.documents.findOne s (.byKey documentKey id)) w =
      match (w.documents table).find? (Filter.accepts · (keyFilter id)) with
      | some row => (some <$> s.shapeRow [] row, w)
      | none => (.ok none, w) := by
  have first : w.store.find table (keyFilter id) (.first 1) =
      ((w.documents table).find? (Filter.accepts · (keyFilter id))).toList :=
    MemoryStore.find_first w.store table (keyFilter id)
  have finish (row : Record) :
      runFrom (some <$> g.documents.finishRow s none [] row) w = (some <$> s.shapeRow [] row, w) := by
    change runFrom (some <$> (liftExcept (s.shapeRow [] row) : Action World Record)) w = _
    cases s.shapeRow [] row <;> rfl
  have asked : g.documents.findOne s (.byKey documentKey id) =
      ask (g.store.find table (keyFilter id) (.first 1)) >>= fun rows =>
        rows.head?.elim (pure none) fun row => some <$> g.documents.finishRow s none [] row := by
    have filter := g.compileFilter_byKey inferred id
    simp only [RecordQuery.byKey] at filter ⊢
    rw [findOne]
    simp only [filter, pure_bind, inferred.table_eq, map_eq_pure_bind]
    refine bind_congr fun rows => ?_
    cases rows <;> rfl
  rw [asked, runFrom_bind, runFrom_find, first]
  cases (w.documents table).find? (Filter.accepts · (keyFilter id)) with
  | none => rfl
  | some row => exact finish row

end Setting

end DataAccess
