import DataAccess.Proofs.Document.Constraints
import DataAccess.Proofs.Engine.Batches
import DataAccess.Proofs.Engine.Guarded
import DataAccess.Proofs.Query.Alike
/-
**What every operation of an engine keeps.**  Over documents in memory an engine changes its world in two
ways: by writes into the store, and by what requests for schemas leave in the cache.  So an invariant
that both of them keep is kept by every operation, whether it succeeds or fails.  What is written is a
proper value if the records are that the operation carries, since validation, the forms of storage and
the removal of fields keep values proper.

Main definitions:

* `Operation.Proper` — an operation whose records are proper values;
* `Setting.Robust` — an invariant that writes and requests for schemas keep.

Main results:

* `Json.Proper.coerceWrite`, `Schema.proper_of_valid`, `Schema.proper_toStored` — proper values stay
  proper on their way into the store;
* `Setting.Robust.keeps_createOne`, `Setting.Robust.keeps_updateOne`, … — the writes of the datasource;
* `Setting.Robust.keeps_batch`, `Setting.Robust.keeps_query` — batches and requests;
* `Setting.Robust.keeps_perform` — **every operation keeps a robust invariant**.
-/

set_option autoImplicit false

namespace DataAccess

/-! ### Proper data -/

theorem Json.Proper.coerceWrite {v : Json} (proper : v.Proper) (type : ColumnType)
    (booleans : BooleanStorage) : (coerceWrite type v booleans).Proper := by
  unfold DataAccess.coerceWrite
  split
  · exact proper
  · split
    · cases coerceBoolean v with
      | none => exact proper
      | some b => cases booleans <;> cases b <;> first | exact .bool _ | exact .number _
    · cases parseTimestamp v with
      | none => exact proper
      | some t => exact .string t.native
    · cases cast : coerceNumber v with
      | none => exact proper
      | some n =>
          obtain ⟨m, rfl⟩ := number_of_coerceNumber cast
          exact .number m
    · exact proper

namespace Schema

variable {s : Schema} {data record : Record}

/-- An accepted value is normalised to a proper one. -/
theorem proper_of_accepted {field : String} {v n : Json} (proper : v.Proper)
    (accepted : s.checkEntry field v = .ok n) : n.Proper := by
  cases accepts_iff.2 accepted with
  | primaryKey => exact proper
  | value _ _ checked =>
      cases judged_of_accepted checked with
      | null => exact .null
      | number _ cast =>
          obtain ⟨m, rfl⟩ := number_of_coerceNumber cast
          exact .number m
      | boolean => exact .bool _
      | date | untyped => exact proper

/-- Validated data are proper if the data are. -/
theorem proper_of_valid (proper : (Json.object data).Proper)
    (valid : s.validateData data = .ok record) : (Json.object record).Proper := by
  obtain ⟨keys, accepted⟩ := validateData_eq_ok valid
  cases proper with
  | object distinct each =>
      refine .object (by rwa [keys]) fun entry member => ?_
      obtain ⟨v, there, passed⟩ := accepted entry member
      exact proper_of_accepted (each _ there) passed

/-- What is stored of a proper record is proper. -/
theorem proper_toStored (s : Schema) (proper : (Json.object record).Proper) :
    (Json.object (s.toStored record)).Proper := by
  cases proper with
  | object distinct each =>
      refine .object (by rwa [toStored_keys]) fun entry member => ?_
      rw [toStored_eq] at member
      obtain ⟨before, there, rfl⟩ := List.mem_map.1 member
      have own := each before there
      dsimp only [storedForm]
      cases s.column? before.1 with
      | none => exact own
      | some c => exact own.coerceWrite c.type .native

/-- What is left of a proper record without the generated fields is proper. -/
theorem proper_withoutGenerated (s : Schema) (proper : (Json.object record).Proper) :
    (Json.object (DocumentDatasource.withoutGenerated s record)).Proper := by
  rw [DocumentDatasource.withoutGenerated]
  generalize s.columns.filter Column.isServerGenerated = columns
  induction columns generalizing record with
  | nil => exact proper
  | cons c rest ih => exact ih (proper.swapErase c.field)

end Schema

/-- The records that an operation carries are proper values. -/
def Operation.Proper : Operation → Prop
  | .createOne _ data | .updateOne _ _ data => (Json.object data).Proper
  | .createMany _ data | .updateMany _ data => data.Proper
  | .deleteOne _ _ | .findOne _ _ | .findMany _ _ | .count _ _ | .uniqueCheck _ _ _
  | .createTable _ => True

namespace Setting

open DataAccess.Action DocumentDatasource

/-! ### What every operation keeps -/

/-- An invariant of worlds that every proper write of the store and every request for a schema
keeps. -/
structure Robust (g : Setting) (inv : World → Prop) : Prop where
  write : ∀ call : StoreCall, call.Proper → ∀ w, inv w → inv ((call.perform g.store).run w).2
  schema : ∀ table, Keeps inv (g.engine.schema table)

/-- What only reads the collections keeps everything. -/
theorem keeps_read {inv : World → Prop} {α : Type} {x : Action World α}
    (settled : ∀ {inv : World → Prop} {store : MemoryStore}, (∀ w, inv w → w.store = store) →
      Settled inv x) : Keeps inv x :=
  keeps_of_settled fun _ => settled fun _ same => congrArg World.store same

namespace Robust

variable {g : Setting} {inv : World → Prop} (robust : g.Robust inv)

include robust

/-- A write whose result is used keeps what the write keeps. -/
theorem keeps_write {α : Type} {x : ExceptT NativeError (StateM World) α} (call : StoreCall)
    (proper : call.Proper) (is : call.perform g.store = do let _ ← x) : Keeps inv (ask x) := by
  intro w h
  have kept := robust.write call proper w h
  have run : x.run w = ((x.run w).1, (x.run w).2) := rfl
  rw [is, StoreCall.run_dropped run] at kept
  exact kept

theorem keeps_insert (table : String) {doc : Record} (proper : (Json.object doc).Proper) :
    Keeps inv (ask (g.documents.store.insertOne table doc)) :=
  robust.keeps_write (.insert table doc) proper rfl

theorem keeps_update (table : String) (filter : Filter) {fields : Record}
    (proper : (Json.object fields).Proper) :
    Keeps inv (ask (g.documents.store.updateOne table filter fields)) :=
  robust.keeps_write (.update table filter fields) proper rfl

theorem keeps_delete (table : String) (filter : Filter) :
    Keeps inv (ask (g.documents.store.deleteOne table filter)) :=
  robust.keeps_write (.delete table filter) trivial rfl

/-! ### Records -/

theorem keeps_createOne (s : Schema) {record : Record} (proper : (Json.object record).Proper) :
    Keeps inv (g.documents.createOne s record) :=
  (robust.keeps_insert s.table (s.proper_toStored (s.proper_withoutGenerated proper))).bind
    fun _ => keeps_liftExcept _

theorem keeps_updateOne (s : Schema) (id : Json) {record : Record}
    (proper : (Json.object record).Proper) : Keeps inv (g.documents.updateOne s id record) := by
  rw [updateOne]
  dsimp only
  split
  · exact keeps_throw_bind _ _
  · refine (robust.keeps_update s.table (keyFilter id)
      (s.proper_toStored (proper.swapErase documentKey))).bind fun changed => ?_
    cases changed with
    | none => exact keeps_throw _
    | some doc => exact keeps_liftExcept _

theorem keeps_deleteOne (s : Schema) (id : Json) (stamped : Option String) :
    Keeps inv (g.documents.deleteOne s id stamped) := by
  cases stamped with
  | none => exact robust.keeps_delete s.table (keyFilter id)
  | some field =>
      have clock : Keeps inv (ExceptT.lift g.documents.now : Action World Timestamp) := fun _ h => h
      refine clock.bind fun now => ?_
      have stamp : (Json.object [(field, .string now.native)]).Proper := .single field (.string _)
      exact (robust.keeps_update s.table (keyFilter id) stamp).bind fun _ => keeps_pure _

theorem keeps_createTable (s : Schema) : Keeps inv (g.documents.createTable s) := by
  have created : Keeps inv (ask (g.store.createCollection s.table s.collectionRules)) :=
    robust.write (.create s.table s.collectionRules) trivial
  exact (keeps_liftExcept _).bind fun _ => created

/-! ### Guarded writes -/

theorem keeps_createRecord (table : String) {data : Record} (proper : (Json.object data).Proper) :
    Keeps inv (g.engine.createRecord table data) := by
  refine (robust.schema table).bind fun s => keeps_liftExcept_bind fun record valid => ?_
  have valid := Schema.validateRequired_eq_ok (Verdict.eq_ok_of_outcome valid)
  refine (keeps_read fun holds => settled_requireUnique holds s record none).bind fun _ => ?_
  exact robust.keeps_createOne s (Schema.proper_of_valid proper valid)

theorem keeps_updateRecord (table : String) (id : Json) {data : Record}
    (proper : (Json.object data).Proper) : Keeps inv (g.engine.updateRecord table id data) := by
  refine (robust.schema table).bind fun s => keeps_liftExcept_bind fun record valid => ?_
  have valid := Verdict.eq_ok_of_outcome valid
  refine (keeps_liftExcept _).bind fun key => ?_
  refine (keeps_read fun holds => settled_requireExisting holds s key id).bind fun _ => ?_
  refine (keeps_read fun holds => settled_requireUnique holds s record (some id)).bind fun _ => ?_
  exact robust.keeps_updateOne s id (Schema.proper_of_valid proper valid)

theorem keeps_deleteRecord (table : String) (id : Json) :
    Keeps inv (g.engine.deleteRecord table id) := by
  refine (robust.schema table).bind fun s => (keeps_liftExcept _).bind fun key => ?_
  refine (keeps_read fun holds => settled_requireExisting holds s key id).bind fun _ => ?_
  exact robust.keeps_deleteOne s id g.engine.config.softDeleteColumn

/-! ### Batches -/

/-- A batch keeps what handling each of its items keeps. -/
theorem keeps_batch {handle : String → Json → Action World Record} (table : String) {data : Json}
    (proper : data.Proper)
    (each : ∀ key item, item.Proper → Keeps inv (handle key item)) :
    Keeps inv (g.engine.batch handle table data) := by
  refine keeps_liftExcept_bind fun items listed => (robust.schema table).bind fun s => ?_
  refine (keeps_liftExcept _).bind fun key => ?_
  have items_proper : ∀ item ∈ items, item.Proper := by
    cases proper with
    | array proper =>
        obtain rfl := Except.ok.inj listed
        exact proper
    | _ => exact absurd listed (by simp [batchItems])
  exact Engine.keeps_eachItem (fun item member => each key item (items_proper item member))
    .empty 0

theorem keeps_createItem (table : String) {item : Json} (proper : item.Proper) :
    Keeps inv (g.engine.createItem table item) := by
  refine keeps_liftExcept_bind fun record is => robust.keeps_createRecord table ?_
  rwa [← itemRecord_eq_ok is]

theorem keeps_updateItem (table key : String) {item : Json} (proper : item.Proper) :
    Keeps inv (g.engine.updateItem table key item) := by
  refine keeps_liftExcept_bind fun record is => ?_
  have proper : (Json.object record).Proper := by rwa [← itemRecord_eq_ok is]
  split
  · exact keeps_throw _
  · exact keeps_throw _
  · exact robust.keeps_updateRecord table _ (proper.swapErase key)

/-! ### Reads -/

theorem keeps_query (s : Schema) (params : Params) : Keeps inv (g.engine.query s params) := by
  intro w h
  -- while a request is read, the same schemas are served
  have serves : g.Serves (· ∈ [g.second]) w.store (g.served w) w := (steady_instant w 0).serves
  have served (table : String) : Answers (g.Serves (· ∈ [g.second]) w.store (g.served w))
      (g.engine.schema table) (g.served w table) :=
    answers_schema List.mem_cons_self table
  have answers (_ : Unit) (table : String) :
      Answers (fun v => g.Serves (· ∈ [g.second]) w.store (g.served w) v ∧ inv v)
        (g.engine.registry.getSchema table none) (g.served w table) := by
    rintro v ⟨serves, h⟩
    obtain ⟨u, run, serves⟩ := served table v serves
    have kept := robust.schema table v h
    exact ⟨u, run, serves, by rwa [run] at kept⟩
  obtain ⟨result, alike⟩ :=
    SchemaRegistry.exists_answers_parseQuery answers g.config.limits s params
  exact ((alike ()).keeps w ⟨serves, h⟩).2

/-- A request on a table: the schema, the checked request, and then what only reads. -/
theorem keeps_request {α : Type} (table : String) (params : Params)
    {read : Schema → Query → Action World α} (reads : ∀ s q, Keeps inv (read s q)) :
    Keeps inv (g.engine.schema table >>= fun s => g.engine.query s params >>= read s) :=
  (robust.schema table).bind fun s => (robust.keeps_query s params).bind (reads s)

/-- **Whatever the engine is asked, it keeps what proper writes and requests for schemas keep.** -/
theorem keeps_perform {op : Operation} (proper : op.Proper) : Keeps inv (g.engine.perform op) := by
  cases op with
  | createOne table data => exact (robust.keeps_createRecord table proper).map _
  | createMany table data =>
      rw [Engine.perform, Engine.createMany_eq]
      exact (robust.keeps_batch table proper fun _ _ => robust.keeps_createItem table).map _
  | updateOne table id data => exact (robust.keeps_updateRecord table id proper).map _
  | updateMany table data =>
      rw [Engine.perform, Engine.updateMany_eq]
      exact (robust.keeps_batch table proper fun key _ => robust.keeps_updateItem table key).map _
  | deleteOne table id => exact (robust.keeps_deleteRecord table id).map _
  | findOne table params =>
      refine robust.keeps_request table params fun s q => ?_
      refine (keeps_read fun holds => settled_findOne holds s q.record).bind fun found => ?_
      cases found with
      | none => exact keeps_pure _
      | some row => exact keeps_pure _
  | findMany table params =>
      refine robust.keeps_request table params fun s q => Keeps.map ?_ _
      exact keeps_read fun holds => settled_findMany holds s q.page
  | count table params =>
      refine robust.keeps_request table params fun s q => Keeps.map ?_ _
      exact keeps_read fun holds => settled_count holds s q.conditions q.relations
  | uniqueCheck table data excluded =>
      refine (robust.schema table).bind fun s => Keeps.map ?_ _
      exact keeps_read fun holds => settled_uniqueCheck holds s data excluded
  | createTable s => exact (robust.keeps_createTable s).bind fun _ => keeps_pure _

end Robust

end Setting

end DataAccess
