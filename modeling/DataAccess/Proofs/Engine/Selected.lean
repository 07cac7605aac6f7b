import DataAccess.Proofs.Document.Finishing
import DataAccess.Proofs.Engine.Sampled
/-
**What a selection of fields lets through.**  A request that names fields of the base table gets, of
each document, its key, these fields, and one object for each table that a path of the request starts
with; nothing else that is stored can be told from the record.  Paths alone select nothing: without a
field of the base table all of them are shown.  Names are taken to be free of dots, since a key with a
dot in it is read as that of a joined value.

Main definitions:

* `Selection.Admits` — the keys that a request lets through;
* `Selection.Shows` — the fields of a document that a record may depend on;
* `Query.Selects` — what is known of the query of a request;
* `FlatNames`, `World.Flat` — states in which no stored field and no column has a dot in its name.

Main results:

* `FlatNames.yields_query` — a request is read into a query that selects what it asks for;
* `FlatNames.yields_findOne`, `FlatNames.yields_findMany` — records hold what the request lets through;
* `FlatNames.reads_selected` — **and depend on nothing else**;
* `Setting.flatNames` — documents in memory without dots in their names.
-/

set_option autoImplicit false

namespace DataAccess

open DataAccess.Action DocumentDatasource RelationNode

namespace Selection

/-- The keys that a request lets through: the key of the document, plain fields that are asked for, and
the first hops of paths that are. -/
def Admits (params : Params) (key : String) : Prop :=
  key = documentKey ∨ key ∈ plain params ∨ key ∈ hops params

instance (params : Params) (key : String) : Decidable (Admits params key) :=
  inferInstanceAs (Decidable (_ ∨ _ ∨ _))

/-- The fields that a record may depend on: the key, plain fields that are asked for, and the fields that
tables are joined by to the document itself. -/
def Shows (params : Params) (nodes : List RelationNode) (field : String) : Prop :=
  field = documentKey ∨ field ∈ plain params ∨
    ∃ n ∈ nodes, Text.cutLast '.' n.path = none ∧ n.joinFields.1 = field

end Selection

/-- What is known of the query of a request with plain fields. -/
structure Query.Selects (params : Params) (q : Query) : Prop where
  fields : ∀ field, field ∈ q.fields.getD [] ↔ field ∈ Selection.plain params
  columns : ∀ n ∈ q.relations, Undotted (n.columns.getD [])
  rooted : ∀ n ∈ q.relations, n.Rooted (Selection.hops params)

theorem Query.Selects.projected {params : Params} {q : Query} (selects : q.Selects params)
    (asked : Selection.plain params ≠ []) : q.fields.getD [] ≠ [] := by
  obtain ⟨field, member⟩ := List.exists_mem_of_ne_nil _ asked
  exact List.ne_nil_of_mem ((selects.fields field).2 member)

/-- States of an invariant in which no column and no stored field has a dot in its name, however they
are read. -/
structure FlatNames {σ : Type} (e : Engine (StateM σ)) (d : DocumentDatasource (StateM σ))
    (inv : σ → Prop) : Prop where
  schema : ∀ table, Action.Yields inv (e.schema table) fun s => Undotted s.columnNames
  find : ∀ table filter read, Action.Yields inv (ask (d.store.find table filter read))
    fun docs => ∀ doc ∈ docs, Undotted (Keyed.keys doc)
  count : ∀ table filter, Action.Keeps inv (ask (d.store.count table filter))

namespace FlatNames

variable {σ : Type} {e : Engine (StateM σ)} {d : DocumentDatasource (StateM σ)} {inv : σ → Prop}
  {params : Params} (flat : FlatNames e d inv)

include flat

/-- A request is read into a query that selects what the request asks for. -/
theorem yields_query (s : Schema) (params : Params) :
    Action.Yields inv (e.query s params) (Query.Selects params) := by
  have returned : ∀ w q w', Returns (e.query s params) w q w' →
      (∀ field, field ∈ q.fields.getD [] ↔ field ∈ Selection.plain params) ∧ q.Checked s :=
    fun w q w' run => ⟨SchemaRegistry.fields_parseQuery run, SchemaRegistry.checked_parseQuery run⟩
  have nodes := SchemaRegistry.yields_parseQuery flat.schema e.config.limits s params
  refine (nodes.and_returned returned).mono ?_
  rintro q ⟨nodes, fields, checked⟩
  refine ⟨fields, ?_, fun n member => (nodes n member).2⟩
  intro n member field projected
  have known := (checked.relations.sound n member).known field projected
  exact (nodes n member).1 field (Schema.hasColumn_iff.1 known)

theorem keeps_find (table : String) (filter : Filter) (read : StoreRead) :
    Action.Keeps inv (ask (d.store.find table filter read)) :=
  fun w h => (flat.find table filter read w h).1

theorem keeps_compileFilter (s : Schema) (conditions : List WhereCondition)
    (nodes : List RelationNode) : Action.Keeps inv (d.compileFilter s conditions nodes) := by
  have related (c : WhereCondition) (path field : String) :
      Action.Keeps inv (d.relatedFilter s nodes c path field) := by
    rw [relatedFilter]
    split
    · exact keeps_throw_bind _ _
    · dsimp only
      split
      · exact keeps_throw _
      · refine (keeps_liftExcept _).bind fun _ => ?_
        exact (flat.keeps_find _ _ _).bind fun _ => keeps_pure _
  have each (c : WhereCondition) : Action.Keeps inv (d.conditionFilter s nodes c) := by
    rw [conditionFilter]
    split
    · exact (keeps_liftExcept _).bind fun _ => keeps_pure _
    · exact related c _ _
  refine Action.Keeps.bind ?_ fun _ => keeps_pure _
  intro w h
  exact (Action.Yields.mapM (fun c _ => (each c).yields) w h).1

/-- A document is finished to a record of what the request lets through. -/
theorem yields_finishRow {q : Query} (selects : q.Selects params)
    (asked : Selection.plain params ≠ []) (s : Schema) {doc : Record}
    (undotted : Undotted (Keyed.keys doc)) :
    Action.Yields inv (d.finishRow s q.fields q.relations doc) fun row =>
      ∀ key ∈ Keyed.keys row, Selection.Admits params key := by
  refine (DocumentDatasource.yields_finishRow flat.keeps_find undotted (selects.projected asked)
    selects.columns).mono ?_
  intro row keys key member
  rcases keys key member with own | field | ⟨n, there, projected, head⟩
  · exact .inl own
  · exact .inr (.inl ((selects.fields key).1 field))
  · obtain ⟨first, hop, starts⟩ := selects.rooted n there projected
    obtain rfl : key = first := Option.some.inj (head.symm.trans starts.2)
    exact .inr (.inr hop)

theorem yields_findOne {q : Query} (selects : q.Selects params)
    (asked : Selection.plain params ≠ []) (s : Schema) :
    Action.Yields inv (d.findOne s q.record) fun found =>
      ∀ row, found = some row → ∀ key ∈ Keyed.keys row, Selection.Admits params key := by
  refine (flat.keeps_compileFilter s _ _).yields.bind fun filter _ => ?_
  refine (flat.find s.table filter _).bind fun docs undotted => ?_
  cases docs with
  | nil => exact Action.yields_pure (by simp)
  | cons doc rest =>
      refine (flat.yields_finishRow selects asked s (undotted doc List.mem_cons_self)).bind ?_
      intro row keys
      refine Action.yields_pure ?_
      intro other same
      exact Option.some.inj same ▸ keys

theorem yields_findMany {q : Query} (selects : q.Selects params)
    (asked : Selection.plain params ≠ []) (s : Schema) :
    Action.Yields inv (d.findMany s q.page) fun page =>
      ∀ row ∈ page.data, ∀ key ∈ Keyed.keys row, Selection.Admits params key := by
  refine (flat.keeps_compileFilter s _ _).yields.bind fun filter _ => ?_
  refine (flat.count s.table filter).yields.bind fun total _ => ?_
  split
  · exact Action.yields_pure (by simp [Page.empty])
  · refine (flat.find s.table filter _).bind fun docs undotted => ?_
    refine (Action.Yields.mapM fun doc member =>
      flat.yields_finishRow selects asked s (undotted doc member)).bind ?_
    intro rows keys
    exact Action.yields_pure keys

/-- **A selection of fields lets nothing else through.**  Where names have no dots in them, a request
for one record or a page that names a plain field gets records of what it lets through.  Two documents
that agree on the fields that the request shows and joins by are finished to the same record, whatever
else is stored in them. -/
theorem reads_selected (backend : e.datasource = d.datasource)
    (asked : Selection.plain params ≠ []) (table : String) :
    (∀ w row w', inv w → Returns (e.perform (.findOne table params)) w (.record row) w' →
      ∀ key ∈ Keyed.keys row, Selection.Admits params key) ∧
    (∀ w page w', inv w → Returns (e.perform (.findMany table params)) w (.page page) w' →
      ∀ row ∈ page.data, ∀ key ∈ Keyed.keys row, Selection.Admits params key) ∧
    ∀ s q w w', Returns (e.query s params) w q w' → ∀ a b : Record,
      Undotted (Keyed.keys a) → Undotted (Keyed.keys b) →
      (Keyed.keys a).Nodup → (Keyed.keys b).Nodup →
      (∀ field, Selection.Shows params q.relations field → a.get? field = b.get? field) →
      ∀ v record v', Returns (d.finishRow s q.fields q.relations a) v record v' →
        ∃ record', Returns (d.finishRow s q.fields q.relations b) v record' v' ∧
          Keyed.Agree record record' := by
  refine ⟨?_, ?_, ?_⟩
  · have performs : Action.Yields inv (e.perform (.findOne table params)) fun reply =>
        ∀ row, reply = .record row → ∀ key ∈ Keyed.keys row, Selection.Admits params key := by
      refine (flat.schema table).bind fun s _ => (flat.yields_query s params).bind fun q selects => ?_
      rw [backend]
      refine (flat.yields_findOne selects asked s).bind fun found keys => ?_
      cases found with
      | none => exact Action.yields_pure (by simp)
      | some row =>
          refine Action.yields_pure ?_
          intro other same
          exact Reply.record.inj same ▸ keys row rfl
    intro w row w' h run
    exact (performs.returns h run).2 row rfl
  · have performs : Action.Yields inv (e.perform (.findMany table params)) fun reply =>
        ∀ page, reply = .page page → ∀ row ∈ page.data, ∀ key ∈ Keyed.keys row,
          Selection.Admits params key := by
      refine (flat.schema table).bind fun s _ => (flat.yields_query s params).bind fun q selects => ?_
      rw [backend]
      refine (flat.yields_findMany selects asked s).map fun page keys => ?_
      intro other same
      exact Reply.page.inj same ▸ keys
    intro w page w' h run
    exact (performs.returns h run).2 page rfl
  · intro s q w w' read a b flat flat' distinct distinct' same v record v' run
    have fields := SchemaRegistry.fields_parseQuery read
    obtain ⟨field, member⟩ := List.exists_mem_of_ne_nil _ asked
    have projected : q.fields.getD [] ≠ [] := List.ne_nil_of_mem ((fields field).2 member)
    refine returns_finishRow_agree flat flat' distinct distinct' projected ?_ ?_ run
    · intro key kept
      exact same key (kept.imp_right fun asked => .inl ((fields key).1 asked))
    · intro n member start
      exact same _ (.inr (.inr ⟨n, member, start, rfl⟩))

end FlatNames

/-! ### Documents in memory -/

/-- Columns that documents show are their fields, and the key. -/
theorem Schema.undotted_inferred (table : String) (unique : List String) (declared : List Relation)
    {sample : List Record} (flat : ∀ doc ∈ sample, Undotted (Keyed.keys doc)) :
    Undotted (inferred table unique declared sample).columnNames := by
  intro name member
  by_cases key : name = documentKey
  · subst key
    decide
  · have typed := typed_inferColumns unique sample name key
    obtain ⟨c, there, same⟩ := List.mem_map.1 member
    have found : ((inferColumns unique sample).find? fun c => c.field = name).isSome := by
      rw [List.find?_isSome]
      exact ⟨c, there, by simpa using same⟩
    by_cases held : name ∈ Keyed.keys sample.flatten
    · obtain ⟨entry, inside, rfl⟩ := List.mem_map.1 held
      obtain ⟨doc, member, inside⟩ := List.mem_flatten.1 inside
      exact flat doc member entry.1 (Keyed.mem_keys inside)
    · rw [if_neg held, Option.map_eq_none_iff] at typed
      rw [typed] at found
      exact absurd found (by simp)

/-- No stored field has a dot in its name. -/
def World.Flat (w : World) : Prop :=
  ∀ c ∈ w.store, ∀ doc ∈ c.2.documents, Undotted (Keyed.keys doc)

instance (w : World) : Decidable w.Flat :=
  inferInstanceAs (Decidable (∀ c ∈ w.store, ∀ doc ∈ c.2.documents, Undotted (Keyed.keys doc)))

theorem World.Flat.documents {w : World} (flat : w.Flat) {name : String} {doc : Record}
    (member : doc ∈ w.documents name) : Undotted (Keyed.keys doc) := by
  rw [World.documents, MemoryStore.documents, MemoryStore.collection] at member
  cases stored : Keyed.get? w.store name with
  | none =>
      rw [stored] at member
      exact absurd member List.not_mem_nil
  | some c =>
      rw [stored] at member
      exact flat (name, c) (Keyed.mem_of_get? stored) doc member

namespace Setting

variable {g : Setting} {w : World}

/-- What documents without dots in their names are served as has none either, if nothing else is cached
and no fallbacks stand in. -/
theorem undotted_served (flat : w.Flat) (fresh : g.Fresh w)
    (alone : ∀ table, g.engine.registry.fallback? table = none)
    {table : String} {s : Schema} (served : g.served w table = .ok s) : Undotted s.columnNames := by
  have described : g.described w table = .ok s := by
    rw [served_eq (named_of_served served)] at served
    cases cached : g.cachedSchema w table with
    | none =>
        rw [cached] at served
        exact served
    | some other =>
        rw [cached] at served
        exact Except.ok.inj served ▸ fresh g.second table other cached
  rw [Setting.described] at described
  split at described
  · rw [SchemaRegistry.standIn_none (alone table)] at described
    exact absurd described (by simp)
  · rw [← Except.ok.inj described]
    refine Schema.undotted_inferred table _ _ ?_
    intro doc found
    obtain ⟨stored, member, rfl⟩ := MemoryStore.exists_stored_of_find found
    exact flat.documents member

/-- **Documents in memory without dots in their names are read without them.** -/
theorem flatNames (flat : w.Flat) (fresh : g.Fresh w)
    (alone : ∀ table, g.engine.registry.fallback? table = none) :
    FlatNames g.engine g.documents (g.Serves (· ∈ [g.second]) w.store (g.served w)) where
  schema table := (answers_schema List.mem_cons_self table).yields fun s served =>
    undotted_served flat fresh alone served
  find table filter read := by
    refine (answers_find (fun _ h => h.store) table filter read).yields ?_
    intro docs same doc member
    obtain ⟨stored, there, rfl⟩ :=
      MemoryStore.exists_stored_of_find ((Except.ok.inj same).symm ▸ member)
    have names : (Keyed.keys (Collection.projected read.projection stored)).Sublist
        (Keyed.keys stored) := by
      rw [Collection.projected.eq_def]
      split
      · exact List.filter_sublist.map Prod.fst
      · exact List.Sublist.refl _
    exact fun key inside => flat.documents there key (names.subset inside)
  count table filter := (answers_count (fun _ h => h.store) table filter).keeps

/-! ### Salaries -/

/-- People are joined to their departments. -/
def payroll : Setting :=
  { tally with config := { tally.config with
      documentRelations := [⟨"department", "_id", "users", "department_id"⟩] } }

/-- A person with a salary. -/
def ada (salary : Int) : Record :=
  [("_id", .string "u"), ("name", .string "Ada"), ("department_id", .string "d"),
    ("salary", .int salary)]

/-- A person in a department. -/
def paidWorld : World where
  store := [("users", ⟨[ada 5], ⟨[], []⟩⟩),
    ("department", ⟨[[("_id", .string "d"), ("name", .string "Research")]], ⟨[], []⟩⟩)]
  cache := []
  issued := 0

/-- A request for the names of people and of their departments. -/
def names : Params := [("fields", "name,department.name")]

/-- A request for the names of departments alone. -/
def departments : Params := [("fields", "department.name")]

/-- The record that people are finished to. -/
def shown (params : Params) (salary : Int) : Action World Record := do
  let s ← payroll.engine.schema "users"
  let q ← payroll.engine.query s params
  payroll.documents.finishRow s q.fields q.relations (ada salary)

/-- Salaries apart, it is the same person. -/
theorem get?_ada {field : String} (other : field ≠ "salary") (salary salary' : Int) :
    (ada salary).get? field = (ada salary').get? field := by
  simp [ada, Ne.symm other]

/-- Whether the reply is a record with the key. -/
def holdsKey (key : String) : Reply → Bool
  | .record row => key ∈ Keyed.keys row
  | _ => false

theorem exists_record (params : Params) (w : World) (key : String)
    (found : (runFrom (payroll.engine.perform (.findOne "users" params)) w).1.toOption.any
      (holdsKey key) = true) :
    ∃ row w', Returns (payroll.engine.perform (.findOne "users" params)) w (.record row) w' ∧
      key ∈ Keyed.keys row := by
  obtain ⟨reply, w', run, holds⟩ := exists_returns found
  cases reply with
  | record row => exact ⟨row, w', run, of_decide_eq_true holds⟩
  | _ => exact absurd holds Bool.false_ne_true

/-- Who asks for the names of people and of their departments gets these, whatever the salary is. -/
theorem reads_selected_payroll : Selection.plain names ≠ [] ∧
    (∃ row w', Returns (payroll.engine.perform (.findOne "users" names)) paidWorld (.record row) w' ∧
      ∀ key ∈ Keyed.keys row, key ∈ ["_id", "name", "department"]) ∧
    ∃ record record' w', Returns (shown names 5) paidWorld record w' ∧
      Returns (shown names 9) paidWorld record' w' ∧ Keyed.Agree record record' := by
  have asked : Selection.plain names ≠ [] := by decide +kernel
  have plain : Selection.plain names = ["name"] := by decide +kernel
  have flat := flatNames (g := payroll) (w := paidWorld) (by decide +kernel) (fresh_of_uncached rfl)
    fun _ => rfl
  obtain ⟨rows, -, alike⟩ := flat.reads_selected rfl asked "users"
  refine ⟨asked, ?_, ?_⟩
  · have hops : Selection.hops names = ["department"] := by decide +kernel
    obtain ⟨row, w', run, -⟩ := exists_record names paidWorld "name" (by decide +kernel)
    refine ⟨row, w', run, ?_⟩
    intro key member
    have admitted := rows _ row w' (steady_instant paidWorld 0).serves run key member
    rw [Selection.Admits, hops, plain] at admitted
    simpa [documentKey] using admitted
  · have joins : (runFrom (payroll.engine.schema "users" >>= fun s => payroll.engine.query s names)
        paidWorld).1.toOption.any (fun q =>
          q.relations.all fun n => n.joinFields.1 = "department_id") = true := by decide +kernel
    obtain ⟨q, v, read, joined⟩ := exists_returns joins
    have finished : (runFrom (shown names 5) paidWorld).1.toOption.any (fun _ => true) = true := by
      decide +kernel
    obtain ⟨record, w', run, -⟩ := exists_returns finished
    obtain ⟨s, u, schema, run⟩ := returns_bind.1 run
    obtain ⟨q', v', query, run⟩ := returns_bind.1 run
    obtain ⟨same, rfl⟩ := Prod.mk.inj (read.symm.trans (returns_bind.2 ⟨s, u, schema, query⟩))
    obtain rfl := Except.ok.inj same
    have agree : ∀ field, Selection.Shows names q.relations field →
        (ada 5).get? field = (ada 9).get? field := by
      intro field shows
      refine get?_ada ?_ 5 9
      rintro rfl
      rcases shows with key | named | ⟨n, there, -, join⟩
      · exact absurd key (by decide)
      · rw [plain] at named
        exact absurd named (by decide)
      · have known := List.all_eq_true.1 joined n there
        rw [join] at known
        exact absurd known (by decide)
    obtain ⟨record', run', same⟩ := alike s q u v query (ada 5) (ada 9) (by decide +kernel)
      (by decide +kernel) (by decide +kernel) (by decide +kernel) agree v record w' run
    exact ⟨record, record', w', returns_bind.2 ⟨s, u, schema, returns_bind.2 ⟨q, v, query, run⟩⟩,
      returns_bind.2 ⟨s, u, schema, returns_bind.2 ⟨q, v, query, run'⟩⟩, same⟩

/-- A person with a field whose name has a dot in it. -/
def bonusWorld : World :=
  { paidWorld with
    store := [("users", ⟨[[("_id", .string "u"), ("name", .string "Ada"), ("pay.bonus", .int 3)]],
      ⟨[], []⟩⟩)] }

/-- Who asks for the names of departments alone gets the salary too, and who asks for names of people
gets what is stored under a name with a dot in it. -/
theorem reads_unselected :
    (Selection.tokens "fields" departments ≠ [] ∧ ∃ row w',
      Returns (payroll.engine.perform (.findOne "users" departments)) paidWorld (.record row) w' ∧
        "salary" ∈ Keyed.keys row ∧ ¬ Selection.Admits departments "salary") ∧
    Selection.tokens "fields" [("fields", "name")] ≠ [] ∧ ∃ row w',
      Returns (payroll.engine.perform (.findOne "users" [("fields", "name")])) bonusWorld
        (.record row) w' ∧
          "pay.bonus" ∈ Keyed.keys row ∧ ¬ Selection.Admits [("fields", "name")] "pay.bonus" := by
  constructor
  · obtain ⟨row, w', run, salary⟩ := exists_record departments paidWorld "salary" (by decide +kernel)
    exact ⟨by decide +kernel, row, w', run, salary, by decide +kernel⟩
  · obtain ⟨row, w', run, bonus⟩ :=
      exists_record [("fields", "name")] bonusWorld "pay.bonus" (by decide +kernel)
    exact ⟨by decide +kernel, row, w', run, bonus, by decide +kernel⟩

end Setting

end DataAccess
