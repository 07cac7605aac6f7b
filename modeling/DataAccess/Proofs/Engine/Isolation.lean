import DataAccess.Proofs.Engine.Batches
import DataAccess.Proofs.Engine.Guarded
/-
**Failures in a batch are isolated.**  Over documents in memory an item of a batch of changes acts on
the collections and on nothing else but the cached schema of its table, which is settled before the
first item.  An item that fails leaves the collections as they are.  So the items that fail can be left
out: the others come to the same rows and leave the same collections.

Main definitions:

* `Setting.Resembles` — worlds with the same collections and the same schema cached for a table;
* `Setting.Isolated` — an operation with one answer and one effect on worlds that resemble each other,
  and with no effect if it fails;
* `BatchReport.others` — the items that a report names no failure of.

Main results:

* `Setting.isolated_updateRecord` — changing a record is isolated;
* `Setting.exists_leadsEach` — changes without those that fail;
* `Setting.returns_others` — **a batch of changes without the items that fail**;
* `Engine.batches_isolated` — **a batch is exactly the sequence of its items, and failures are
  isolated**.
-/

set_option autoImplicit false

namespace DataAccess

/-! ### Items with settled outcomes -/

/-- From every state of the invariant the items, handled one after another, come to the outcomes and
leave a state with `post`. -/
def Action.LeadsEach {σ α β : Type} (inv : σ → Prop) (handle : α → Action σ β) (items : List α)
    (outcomes : List (Outcome β)) (post : σ → Prop) : Prop :=
  ∀ w, inv w → ∃ v, eachRun handle items w = (outcomes, v) ∧ post v

theorem Action.Leads.cons {σ α β : Type} {inv between post : σ → Prop} {handle : α → Action σ β}
    {item : α} {rest : List α} {outcome : Outcome β} {outcomes : List (Outcome β)}
    (first : Leads inv (handle item) outcome between)
    (others : LeadsEach between handle rest outcomes post) :
    LeadsEach inv handle (item :: rest) (outcome :: outcomes) post := by
  intro w h
  obtain ⟨u, run, kept⟩ := first w h
  obtain ⟨v, later, reached⟩ := others u kept
  refine ⟨v, ?_, reached⟩
  rw [eachRun_cons, run]
  dsimp only
  rw [later]

namespace BatchReport

/-- The items that a report names no failure of, in their order. -/
def others (r : BatchReport) (items : List Json) : List Json :=
  (items.zipIdx.filter fun entry => entry.2 ∉ r.failures.map BatchFailure.item).map Prod.fst

/-- The items whose outcomes are rows. -/
def succeeding : List Json → List (Outcome Record) → List Json
  | item :: items, .ok _ :: outcomes => item :: succeeding items outcomes
  | _ :: items, .error _ :: outcomes => succeeding items outcomes
  | _, _ => []

/-- A position is among the failures if the outcome there is one. -/
theorem mem_positions {first position : Nat} {outcomes : List (Outcome Record)} :
    position ∈ (failuresFrom first outcomes).map BatchFailure.item ↔
      ∃ i cause, position = first + i ∧ outcomes[i]? = some (.error cause) := by
  rw [List.mem_map]
  constructor
  · rintro ⟨f, member, rfl⟩
    obtain ⟨i, item, here⟩ := mem_failuresFrom.1 member
    exact ⟨i, f.cause, item, here⟩
  · rintro ⟨i, cause, rfl, here⟩
    exact ⟨⟨first + i, cause⟩, mem_failuresFrom.2 ⟨i, rfl, here⟩, rfl⟩

/-- Counted from `first`, the items at no position of a failure are those that succeed. -/
theorem filter_zipIdx (first : Nat) {items : List Json} {outcomes : List (Outcome Record)}
    (same : outcomes.length = items.length) :
    ((items.zipIdx first).filter fun entry =>
      entry.2 ∉ (failuresFrom first outcomes).map BatchFailure.item).map Prod.fst =
        succeeding items outcomes := by
  induction items generalizing first outcomes with
  | nil =>
      cases outcomes with
      | nil => rfl
      | cons outcome rest => exact absurd same (by simp)
  | cons item items ih =>
      cases outcomes with
      | nil => exact absurd same (by simp)
      | cons outcome rest =>
          have shorter : rest.length = items.length := by simpa using same
          rw [List.zipIdx_cons, List.filter_cons]
          cases outcome with
          | ok row =>
              -- the failures come later than this item
              have later : first ∉ (failuresFrom (first + 1) rest).map BatchFailure.item := by
                rw [mem_positions]
                rintro ⟨i, cause, position, -⟩
                omega
              rw [failuresFrom, if_pos (by simpa using later), List.map_cons, succeeding,
                ih (first + 1) shorter]
          | error cause =>
              rw [failuresFrom, if_neg (by simp), succeeding, ← ih (first + 1) shorter]
              refine congrArg (List.map Prod.fst) (List.filter_congr ?_)
              rintro ⟨other, position⟩ member
              have later : first + 1 ≤ position := (List.mem_zipIdx member).1
              have apart : position ≠ first := by omega
              simp [apart]

/-- A report on the outcomes of items names no failure of those that succeed. -/
theorem others_ofOutcomes {items : List Json} {outcomes : List (Outcome Record)}
    (same : outcomes.length = items.length) :
    (ofOutcomes outcomes).others items = succeeding items outcomes :=
  filter_zipIdx 0 same

/-- The report on rows alone. -/
theorem ofOutcomes_rows (rows : List Record) : ofOutcomes (rows.map .ok) = ⟨[], rows⟩ := by
  have none (first : Nat) : failuresFrom first (rows.map .ok) = [] := by
    induction rows generalizing first with
    | nil => rfl
    | cons row rest ih => exact ih (first + 1)
  have all : rowsOf (rows.map .ok) = rows := by
    rw [rowsOf, List.filterMap_map]
    exact List.filterMap_some
  rw [ofOutcomes, none, all]

end BatchReport

namespace Setting

variable (g : Setting) {table : String}

open DataAccess.Action

/-! ### Worlds that resemble each other -/

/-- A world with the same collections, and with the same schema cached for a table. -/
structure Resembles (table : String) (w v : World) : Prop where
  store : v.store = w.store
  cached : g.cachedSchema v table = g.cachedSchema w table

variable {g}

theorem Resembles.refl (w : World) : g.Resembles table w w := ⟨rfl, rfl⟩

/-- The same schema is served. -/
theorem Resembles.served {w v : World} (like : g.Resembles table w v) :
    g.served v table = g.served w table := by
  by_cases nameless : table = ""
  · subst nameless
    rfl
  · have described : g.described v table = g.described w table := by
      rw [described, described, shownSchema, shownSchema, like.store]
    rw [served_eq nameless, served_eq nameless, like.cached, described]

/-! ### The schema during a batch -/

/-- A schema that was not found in the cache is not found after looking for it. -/
theorem cachedSchema_after_read {w : World} {entry : Option Json} {cache : MemoryCache}
    (read : w.cache.read g.second (SchemaRegistry.cacheKey table) = (entry, cache))
    (uncached : g.cachedSchema w table = none) : g.cachedSchema { w with cache } table = none := by
  have again := MemoryCache.read_after_read w.cache g.second g.second
    (SchemaRegistry.cacheKey table) (SchemaRegistry.cacheKey table)
  rw [read] at again
  rw [cachedSchema] at uncached ⊢
  rcases again with same | ⟨-, -, nothing⟩
  · rw [← uncached, read]
    exact congrArg (· >>= Schema.ofJson?) same
  · exact congrArg (· >>= Schema.ofJson?) nothing

/-- A cache that keeps nothing is not filled. -/
theorem cachedSchema_refill {w : World} {entry : Option Json} {cache : MemoryCache}
    (idle : g.config.schemaCacheTtl = 0)
    (read : w.cache.read g.second (SchemaRegistry.cacheKey table) = (entry, cache))
    (uncached : g.cachedSchema w table = none) :
    g.cachedSchema { w with cache := g.refill w table cache } table = none := by
  rw [refill]
  split
  · exact cachedSchema_after_read read uncached
  · rw [cachedSchema, idle]
    exact congrArg (· >>= Schema.ofJson?) (MemoryCache.read_write_expired (Nat.le_refl _) _ _ _)

/-- While a schema is cached, or nothing ever is, asking for it changes neither. -/
theorem answers_schema_cached {w : World}
    (cached : 0 < g.config.schemaCacheTtl → g.cachedSchema w table ≠ none) :
    Answers (g.Resembles table w) (g.engine.schema table) (g.served w table) := by
  intro v like
  rw [← like.served]
  by_cases nameless : table = ""
  · subst nameless
    exact ⟨v, g.engine.registry.runFrom_getSchema_nameless none v, like⟩
  · obtain ⟨entry, cache, read⟩ : ∃ entry cache, v.cache.read g.second
        (SchemaRegistry.cacheKey table) = (entry, cache) := ⟨_, _, rfl⟩
    have run := g.runFrom_schema_read nameless read
    rw [served_eq nameless]
    cases here : g.cachedSchema v table with
    | some s =>
        rw [here] at run
        refine ⟨{ v with cache }, run, like.store, ?_⟩
        rcases g.cacheKept_read read g.second table with same | ⟨-, absent, -⟩
        · exact Eq.trans same like.cached
        · exact absurd (absent.symm.trans here) (by simp)
    | none =>
        rw [here] at run
        have absent : g.cachedSchema w table = none := like.cached.symm.trans here
        have idle : g.config.schemaCacheTtl = 0 := by
          by_contra lives
          exact cached (Nat.pos_of_ne_zero lives) absent
        refine ⟨{ v with cache := g.refill v table cache }, run, like.store, ?_⟩
        rw [absent]
        exact cachedSchema_refill idle read here

/-! ### Isolated operations -/

/-- From worlds that resemble `w`, an operation comes to one answer and leaves worlds that resemble
one world, whose documents have the keys that they had; and if it fails the collections stay. -/
def Isolated (g : Setting) (table : String) (w : World) {α : Type} (x : Action World α) : Prop :=
  ∃ answer v, Leads (g.Resembles table w) x answer (g.Resembles table v) ∧
    g.cachedSchema v table = g.cachedSchema w table ∧
    (v.documents table).map (·.get? documentKey) = (w.documents table).map (·.get? documentKey) ∧
    ∀ e, answer = .error e → v.store = w.store

variable {w : World} {α β : Type}

theorem isolated_of_answers {x : Action World α} {answer : Outcome α}
    (answers : Answers (g.Resembles table w) x answer) : g.Isolated table w x :=
  ⟨answer, w, answers, rfl, rfl, fun _ _ => rfl⟩

/-- What only reads may come first. -/
theorem Isolated.after {x : Action World α} {f : α → Action World β}
    (settled : Settled (g.Resembles table w) x)
    (rest : ∀ a, Answers (g.Resembles table w) x (.ok a) → g.Isolated table w (f a)) :
    g.Isolated table w (x >>= f) := by
  obtain ⟨answer, answers⟩ := settled
  cases answer with
  | error e => exact isolated_of_answers (answers.bind_error f)
  | ok a =>
      obtain ⟨b, v, leads, kept⟩ := rest a answers
      exact ⟨b, v, answers.leads_bind leads, kept⟩

/-! ### Changes are isolated -/

/-- Changing a document asks the collections alone and leaves everything else as it is. -/
theorem runFrom_updateOne_congr {u : World} (same : u.store = w.store) (s : Schema) (id : Json)
    (record : Record) :
    runFrom (g.documents.updateOne s id record) u =
      ((runFrom (g.documents.updateOne s id record) w).1,
        { u with store := (runFrom (g.documents.updateOne s id record) w).2.store }) := by
  rw [DocumentDatasource.updateOne]
  dsimp only
  split
  · rw [runFrom_throw_bind, runFrom_throw_bind, ← same]
  · have asked (v : World) (fields : Record) :
        runFrom (DocumentDatasource.ask (g.documents.store.updateOne s.table (keyFilter id) fields)) v =
          _ := g.runFrom_updateOne s.table (keyFilter id) fields v
    rw [runFrom_bind, runFrom_bind, asked, asked, same]
    cases w.store.update s.table (keyFilter id) (s.toStored (record.swapErase documentKey)) with
    | mk result store =>
        rcases result with e | (_ | doc)
        · rfl
        · rfl
        · change runFrom (liftExcept (s.shapeRow [] doc)) { u with store } =
            ((runFrom (liftExcept (s.shapeRow [] doc) : Action World Record) { w with store }).1,
              { u with
                store := (runFrom (liftExcept (s.shapeRow [] doc) : Action World Record)
                  { w with store }).2.store })
          rw [runFrom_liftExcept, runFrom_liftExcept]

/-- The documents of a table have texts as keys, its schemas are inferred, and unless nothing is ever
cached one of them is. -/
structure Ready (g : Setting) (table : String) (w : World) : Prop where
  infers : g.Infers w table
  cached : 0 < g.config.schemaCacheTtl → g.cachedSchema w table ≠ none
  texts : TextKeys (w.documents table)

/-- What keeps the cached schema and the keys of the documents leaves a world ready. -/
theorem Ready.kept {v : World} (ready : g.Ready table w)
    (cached : g.cachedSchema v table = g.cachedSchema w table)
    (keys : (v.documents table).map (·.get? documentKey) =
      (w.documents table).map (·.get? documentKey)) : g.Ready table v := by
  refine ⟨⟨ready.infers.alone, ?_⟩, ?_, ?_⟩
  · rw [cached]
    exact ready.infers.cached
  · rw [cached]
    exact ready.cached
  · intro doc member
    have listed : doc.get? documentKey ∈ (w.documents table).map (·.get? documentKey) := by
      rw [← keys]
      exact List.mem_map_of_mem member
    obtain ⟨old, there, same⟩ := List.mem_map.1 listed
    obtain ⟨k, text⟩ := ready.texts old there
    exact ⟨k, same.symm.trans text⟩

/-- Changing a document that can be shaped is isolated. -/
theorem isolated_updateOne {s : Schema} (inferred : s.IsInferred table)
    (texts : TextKeys (w.documents table)) {data record : Record} (distinct : (Keyed.keys data).Nodup)
    (valid : s.validateData data = .ok record) {id : Json}
    (readable : ∀ found, (w.documents table).find? (Filter.accepts · (keyFilter id)) = some found →
      s.Readable found) : g.Isolated table w (g.documents.updateOne s id record) := by
  cases run : runFrom (g.documents.updateOne s id record) w with
  | mk answer v =>
      have effect := g.updateOne_effect inferred distinct valid texts id readable run
      have unread : v = { w with store := v.store } := by
        have own := runFrom_updateOne_congr (g := g) (w := w) (u := w) rfl s id record
        rw [run] at own
        exact (Prod.mk.inj own).2
      have cached : g.cachedSchema v table = g.cachedSchema w table := by
        rw [unread]
        rfl
      refine ⟨answer, v, ?_, cached, ?_, ?_⟩
      · intro u like
        refine ⟨{ u with store := v.store }, ?_, rfl, ?_⟩
        · rw [runFrom_updateOne_congr like.store, run]
        · exact like.cached.trans cached.symm
      · cases answer with
        | error e => rw [show v = w from effect]
        | ok r =>
            obtain ⟨found, doc, before, after, exchanged, fields, -⟩ := effect
            have own : doc.get? documentKey = found.get? documentKey := by
              rw [fields, if_pos rfl]
            rw [exchanged.documents table, if_pos rfl, exchanged.held]
            simp only [List.map_append, List.map_cons, own]
      · rintro e rfl
        exact congrArg World.store effect

variable (ready : g.Ready table w)

include ready

/-- **Changing a record is isolated.** -/
theorem isolated_updateRecord (id : Json) {data : Record} (distinct : (Keyed.keys data).Nodup) :
    g.Isolated table w (g.engine.updateRecord table id data) := by
  have stores : ∀ v, g.Resembles table w v → v.store = w.store := by
    intro v like
    exact like.store
  have answers := answers_schema_cached ready.cached
  refine Isolated.after ⟨_, answers⟩ ?_
  intro s served
  have same := (answers.result (.refl w)).symm.trans (served.result (.refl w))
  have inferred := ready.infers.isInferred same
  refine Isolated.after (settled_liftExcept _) ?_
  intro record passed
  have valid : s.validateData data = .ok record := by
    refine Verdict.eq_ok_of_outcome ?_
    have result := passed.result (.refl w)
    rwa [runFrom_liftExcept] at result
  rw [inferred.primaryKeyField]
  refine Isolated.after (settled_liftExcept _) ?_
  intro primaryKey key
  obtain rfl : documentKey = primaryKey := by
    have result := key.result (.refl w)
    rw [runFrom_liftExcept] at result
    exact Except.ok.inj result
  refine Isolated.after (settled_requireExisting stores s documentKey id) ?_
  intro _ existing
  -- the guard shaped the document, so that what is written into it can be shaped again
  obtain ⟨result, run, found⟩ := g.runFrom_requireExisting inferred id w
  have passed := existing.result (.refl w)
  rw [run] at passed
  obtain ⟨first, readable, chosen⟩ := found passed
  refine Isolated.after (settled_requireUnique stores s record (some id)) ?_
  intro _ _
  refine isolated_updateOne inferred ready.texts distinct valid ?_
  intro other there
  obtain rfl : first = other := Option.some.inj (chosen.symm.trans there)
  exact readable

/-- A change that an item asks for is isolated, also where it asks for none. -/
theorem isolated_updateItem (item : Json)
    (distinct : ∀ fields, item = .object fields → (Keyed.keys fields).Nodup) :
    g.Isolated table w (g.engine.updateItem table documentKey item) := by
  refine Isolated.after (settled_liftExcept _) ?_
  intro record given
  have object : item = .object record := by
    have result := given.result (.refl w)
    rw [runFrom_liftExcept] at result
    cases item with
    | object fields => rw [Except.ok.inj result]
    | _ => exact absurd result (by simp [itemRecord])
  split
  · exact isolated_of_answers (answers_throw _)
  · exact isolated_of_answers (answers_throw _)
  · exact isolated_updateRecord ready _ (Keyed.nodup_keys_swapErase (distinct record object) _)

/-! ### Batches of changes -/

/-- **Changes without those that fail** come to the same rows and leave the same collections. -/
theorem exists_leadsEach {items : List Json}
    (distinct : ∀ fields, .object fields ∈ items → (Keyed.keys fields).Nodup) :
    ∃ outcomes v, outcomes.length = items.length ∧
      LeadsEach (g.Resembles table w) (g.engine.updateItem table documentKey) items outcomes
        (g.Resembles table v) ∧
      LeadsEach (g.Resembles table w) (g.engine.updateItem table documentKey)
        (BatchReport.succeeding items outcomes) ((BatchReport.rowsOf outcomes).map .ok)
        (g.Resembles table v) := by
  -- by induction on the items, at the worlds that the items before leave
  induction items generalizing w with
  | nil =>
      refine ⟨[], w, rfl, ?_, ?_⟩
      · intro u like
        exact ⟨u, rfl, like⟩
      · intro u like
        exact ⟨u, rfl, like⟩
  | cons item rest ih =>
      obtain ⟨answer, u, leads, cached, keys, failed⟩ := isolated_updateItem ready item
        (by rintro fields rfl; exact distinct fields (List.mem_cons_self ..))
      obtain ⟨outcomes, v, same, all, successes⟩ := ih (ready.kept cached keys)
        (fun fields member => distinct fields (List.mem_cons_of_mem _ member))
      refine ⟨answer :: outcomes, v, congrArg (· + 1) same, leads.cons all, ?_⟩
      cases answer with
      | ok row => exact leads.cons successes
      | error cause =>
          -- a change that failed left a world that resembles the one before
          intro z like
          refine successes z ⟨like.store.trans (failed cause rfl).symm, like.cached.trans cached.symm⟩

omit ready in
/-- Once the schema was asked for, a world is ready. -/
theorem ready_of_schema {cache : MemoryCache} (infers : g.Infers w table)
    (texts : TextKeys (w.documents table)) (kept : g.CacheKept w { w with cache } table)
    (cached : 0 < g.config.schemaCacheTtl → ∃ s, g.cachedSchema { w with cache } table = some s) :
    g.Ready table { w with cache } := by
  refine ⟨⟨infers.alone, ?_⟩, ?_, texts⟩
  · intro s found
    rcases kept g.second table with same | ⟨-, -, within⟩
    · exact infers.cached s (same.symm.trans found)
    · exact g.isInferred_of_described infers.alone (within s found).described
  · intro lives absent
    obtain ⟨s, found⟩ := cached lives
    exact absurd (found.symm.trans absent) (by simp)

omit ready in
/-- **A batch of changes without the items that fail** returns the same rows and leaves the same
collections. -/
theorem returns_others (infers : g.Infers w table) (texts : TextKeys (w.documents table))
    {items : List Json} (distinct : ∀ fields, .object fields ∈ items → (Keyed.keys fields).Nodup)
    {report : BatchReport} {v : World}
    (run : Returns (g.engine.updateMany table (.array items)) w report v) :
    ∃ v', Returns (g.engine.updateMany table (.array (report.others items))) w ⟨[], report.rows⟩ v' ∧
      v'.store = v.store := by
  rw [Engine.updateMany_eq] at run
  obtain ⟨s, u, primaryKey, outcomes, asked, key, ran, rfl⟩ := Engine.returns_batch.1 run
  obtain ⟨cache, answered, kept, cached⟩ := g.runFrom_schema w table
  obtain ⟨served, rfl⟩ := Prod.mk.inj (answered.symm.trans asked)
  obtain rfl : documentKey = primaryKey :=
    Except.ok.inj ((infers.isInferred served).primaryKeyField.symm.trans key)
  have ready : g.Ready table { w with cache } :=
    ready_of_schema infers texts kept fun lives => ⟨s, cached s lives infers.alone served⟩
  obtain ⟨outcomes', last, same, all, successes⟩ := exists_leadsEach ready distinct
  obtain ⟨z, whole, end₁⟩ := all _ (.refl _)
  obtain ⟨z', part, end₂⟩ := successes _ (.refl _)
  obtain ⟨rfl, rfl⟩ := Prod.mk.inj (whole.symm.trans ran)
  refine ⟨z', ?_, end₂.store.trans end₁.store.symm⟩
  rw [Engine.updateMany_eq, BatchReport.others_ofOutcomes same]
  exact Engine.returns_batch.2 ⟨s, _, documentKey, _, asked, key, part,
    (BatchReport.ofOutcomes_rows _).symm⟩

end Setting

/-! ### Batches -/

open DataAccess.Action

/-- **A batch is exactly the sequence of its items, and over documents in memory its failures are
isolated.**  With any datasource, on a table with a key, changes and new records end where their items
end one after another, and the reports tell how each ended.  Over documents whose keys are texts, under
inferred schemas, changes without those that fail return the same rows and leave the same
collections. -/
theorem Engine.batches_isolated :
    (∀ {σ : Type} (e : Engine (StateM σ)) (table primaryKey : String) (s : Schema) (w u : σ)
      (items : List Json),
      Returns (e.schema table) w s u → s.primaryKeyField = .ok primaryKey →
        RunsItems (e.updateMany table (.array items)) (e.updateItem table primaryKey) items w u ∧
        RunsItems (e.createMany table (.array items)) (e.createItem table) items w u) ∧
    ∀ (g : Setting) (table : String) (items : List Json) (report : BatchReport) (w v : World),
      g.Infers w table → TextKeys (w.documents table) →
      (∀ fields, .object fields ∈ items → (Keyed.keys fields).Nodup) →
      Returns (g.engine.updateMany table (.array items)) w report v →
        ∃ v', Returns (g.engine.updateMany table (.array (report.others items))) w
          ⟨[], report.rows⟩ v' ∧ v'.store = v.store := by
  constructor
  · intro σ e table primaryKey s w u items served key
    rw [updateMany_eq, createMany_eq]
    constructor
    · exact runsItems_batch served key
    · exact runsItems_batch served key
  · intro g table items report w v infers texts distinct run
    exact Setting.returns_others infers texts distinct run

/-- Changes of one person, among them a number, a change without a key, one of a person that is not
there, and one of a field that is not known. -/
def Setting.changes : List Json :=
  [.object [("_id", .string "a"), ("name", .string "Grace")], .nat 7,
    .object [("name", .string "Ada")], .object [("_id", .string "z"), ("name", .string "Ada")],
    .object [("_id", .string "a"), ("age", .nat 36)],
    .object [("_id", .string "a"), ("born", .string "1906-12-09")]]

open Setting in
theorem Engine.batches_isolated_onePerson :
    (∃ s u, Returns (tally.engine.schema "people") onePerson s u ∧
      RunsItems (tally.engine.updateMany "people" (.array changes))
        (tally.engine.updateItem "people" documentKey) changes onePerson u ∧
      RunsItems (tally.engine.createMany "people" (.array changes))
        (tally.engine.createItem "people") changes onePerson u) ∧
    ∃ report v v', Returns (tally.engine.updateMany "people" (.array changes)) onePerson report v ∧
      report.failures.map BatchFailure.item = [1, 2, 3, 4] ∧
      Returns (tally.engine.updateMany "people" (.array (report.others changes))) onePerson
        ⟨[], report.rows⟩ v' ∧ v'.store = v.store := by
  constructor
  · obtain ⟨s, u, served, keyed⟩ := exists_returns (x := tally.engine.schema "people")
      (w := onePerson) (p := fun s => s.primaryKeyField.toOption == some documentKey)
      (by decide +kernel)
    have key : s.primaryKeyField = .ok documentKey := by
      cases found : s.primaryKeyField with
      | error e => exact absurd keyed (by simp [found, Except.toOption])
      | ok name => simpa [found, Except.toOption] using keyed
    exact ⟨s, u, served,
      batches_isolated.1 tally.engine "people" documentKey s onePerson u changes served key⟩
  · obtain ⟨report, v, run, failures⟩ := exists_returns
      (x := tally.engine.updateMany "people" (.array changes)) (w := onePerson)
      (p := fun r => r.failures.map BatchFailure.item == [1, 2, 3, 4]) (by decide +kernel)
    have infers : tally.Infers onePerson "people" := by
      refine ⟨rfl, ?_⟩
      intro s cached
      exact absurd cached (by simp [cachedSchema, onePerson, MemoryCache.read])
    have texts : TextKeys (onePerson.documents "people") := by
      intro doc member
      exact ⟨"a", by rw [List.mem_singleton.1 member]; rfl⟩
    have distinct : ∀ fields, .object fields ∈ changes → (Keyed.keys fields).Nodup := by
      intro fields member
      simp only [changes, List.mem_cons, Json.object.injEq, List.not_mem_nil, or_false, Json.nat,
        reduceCtorEq, false_or] at member
      rcases member with rfl | rfl | rfl | rfl | rfl <;> decide
    obtain ⟨v', others, same⟩ :=
      batches_isolated.2 tally "people" changes report onePerson v infers texts distinct run
    exact ⟨report, v, v', run, by simpa using failures, others, same⟩

end DataAccess
