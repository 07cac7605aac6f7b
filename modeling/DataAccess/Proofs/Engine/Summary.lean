import DataAccess.Proofs.Engine.Serving
import DataAccess.Proofs.Query.Framing
/-
**A schema that sums up a collection.**  The columns of an inferred schema are the key and, in the order
in which they turn up, the other fields of the first documents.  Each field is named once, with the type
of its first value that is not null, and is unique where the collection says so.  A collection without
documents shows no columns, and for the registry such a table is missing.

Main definitions:

* `Schema.SumsUp` — what a schema says of a table whose first documents are a sample;
* `DocumentDatasource.Describes` — what a datasource and its registries make of a collection.

Main results:

* `names_inferColumns` — the names of the columns that a sample shows;
* `Schema.sumsUp_inferred` — **an inferred schema sums up its sample**;
* `DocumentDatasource.introspect_describes` — a collection is described by its first documents, whatever
  the store;
* `Setting.haunted_served` — a collection without documents for which a fallback stands in.
-/

set_option autoImplicit false

namespace DataAccess

/-! ### Names and types -/

theorem nodup_foldl_addNew {names : List String} (distinct : names.Nodup) (requested : List String) :
    (requested.foldl addNew names).Nodup := by
  induction requested generalizing names with
  | nil => exact distinct
  | cons name rest ih => exact ih (RelationNode.addNew_nodup distinct name)

/-- One more stored field adds its name unless it is there. -/
theorem names_inferField (unique : List String) (columns : List Column) (entry : String × Json) :
    (inferField unique columns entry).map Column.field =
      addNew (columns.map Column.field) entry.1 := by
  have known : (columns.map Column.field).contains entry.1 =
      columns.any fun c => decide (c.field = entry.1) := by
    rw [List.contains_eq_any_beq, List.any_map]
    refine congrArg (List.any columns) (funext fun c => ?_)
    rw [Function.comp_apply, Bool.eq_iff_iff, beq_iff_eq, decide_eq_true_iff, eq_comm]
  rw [inferField, addNew, known]
  split
  · rw [List.map_map]
    refine List.map_congr_left fun c _ => ?_
    rw [Function.comp_apply]
    split <;> rfl
  · rw [List.map_append]
    rfl

/-- **The columns of a sample are named after the key and, each once and in the order in which they turn
up, the other fields.** -/
theorem names_inferColumns (unique : List String) {sample : List Record} (filled : sample ≠ []) :
    (inferColumns unique sample).map Column.field =
      documentKey :: newNames [documentKey] (Keyed.keys sample.flatten) := by
  have run (fields : Record) (columns : List Column) :
      (fields.foldl (inferField unique) columns).map Column.field =
        (Keyed.keys fields).foldl addNew (columns.map Column.field) := by
    induction fields generalizing columns with
    | nil => rfl
    | cons entry rest ih =>
        rw [List.foldl_cons, ih, names_inferField]
        rfl
  rw [inferColumns, if_neg (by simpa using filled), run, foldl_addNew]
  rfl

/-- The names of the columns of a sample are distinct. -/
theorem nodup_inferColumns (unique : List String) (sample : List Record) :
    ((inferColumns unique sample).map Column.field).Nodup := by
  by_cases empty : sample = []
  · rw [empty]
    exact List.nodup_nil
  · rw [names_inferColumns unique empty]
    have added := nodup_foldl_addNew (List.nodup_singleton documentKey)
      (Keyed.keys sample.flatten)
    rwa [foldl_addNew] at added

/-- A column behind the key has the type that the sample shows for its name. -/
theorem type_of_mem_inferColumns {unique : List String} {sample : List Record} {c : Column}
    (member : c ∈ inferColumns unique sample) (other : c.field ≠ documentKey) :
    c.type = shownType sample.flatten c.field := by
  have typed := typed_inferColumns unique sample c.field other
  cases found : (inferColumns unique sample).find? fun k => decide (k.field = c.field) with
  | none => exact absurd (List.find?_eq_none.1 found c member) (by simp)
  | some first =>
      have named : first.field = c.field := by simpa using List.find?_some found
      -- names are distinct, so the first column of the name is the only one
      obtain rfl := List.inj_on_of_nodup_map (nodup_inferColumns unique sample)
        (List.mem_of_find?_eq_some found) member named
      rw [found, Option.map_some] at typed
      split at typed
      · exact Option.some.inj typed
      · exact absurd typed (by simp)

namespace Schema

/-- What a schema says of a table whose first documents are `sample`, with unique indexes and with the
relations that are declared between tables. -/
structure SumsUp (s : Schema) (table : String) (sample : List Record) (unique : List String)
    (declared : List Relation) : Prop where
  structured : s.validateStructure = .ok ()
  named : s.table = table
  names : s.columnNames = documentKey :: newNames [documentKey] (Keyed.keys sample.flatten)
  types : ∀ c ∈ s.columns, c.type =
    if c.field = documentKey then .string else shownType sample.flatten c.field
  flagged : ∀ c ∈ s.columns, c.uniqueKey = (c.field = documentKey || unique.contains c.field)
  primary : ∀ c ∈ s.columns, c.primaryKey = decide (c.field = documentKey)
  primaryKey : s.primaryKey = documentKey
  relations : s.relations = declared.filter fun r => r.table = table || r.ownTable = table

/-- **An inferred schema sums up its sample.** -/
theorem sumsUp_inferred (table : String) (unique : List String) (declared : List Relation)
    {sample : List Record} (filled : sample ≠ []) :
    (inferred table unique declared sample).SumsUp table sample unique declared := by
  obtain ⟨rest, columns, shown⟩ := inferColumns_eq unique filled
  have listed : (inferred table unique declared sample).columns = keyColumn :: rest := columns
  have flagged : flaggedKey? (inferred table unique declared sample).columns = some documentKey := by
    rw [listed]
    rfl
  have key : (inferred table unique declared sample).primaryKey = documentKey := by
    change (flaggedKey? (inferred table unique declared sample).columns).getD "" = documentKey
    rw [flagged, Option.getD_some]
  -- the key is the one column of its name
  have cases {P : Column → Prop} (first : P keyColumn)
      (others : ∀ c ∈ inferColumns unique sample, InferredColumn c → c.field ≠ documentKey → P c) :
      ∀ c ∈ (inferred table unique declared sample).columns, P c := by
    intro c member
    have inside : c ∈ inferColumns unique sample := member
    rw [listed] at member
    rcases List.mem_cons.1 member with rfl | member
    · exact first
    · refine others c inside (shown c member) ?_
      cases shown c member with
      | field name type unique other => exact other
  refine ⟨?_, rfl, names_inferColumns unique filled, cases rfl ?_, cases rfl ?_, cases rfl ?_, key, rfl⟩
  · have found : (inferred table unique declared sample).primaryKeyField = .ok documentKey := by
      rw [primaryKeyField, flagged]
    have columned : (inferred table unique declared sample).columns.isEmpty = false := by
      rw [listed]
      rfl
    simp [validateStructure, found, columned, key, bind, Except.bind, pure, Except.pure]
  · intro c member _ other
    rw [if_neg other]
    exact type_of_mem_inferColumns member other
  · intro c member _ other
    rw [flagged_inferColumns unique sample c member other, decide_eq_false other, Bool.false_or]
  · intro c _ optional other
    rw [optional.primaryKey, decide_eq_false other]

end Schema

/-! ### Introspection -/

namespace DocumentDatasource

open DataAccess.Action

variable {σ : Type}

/-- The datasource describes a collection with certain documents and unique indexes: by a schema that sums
up the first hundred documents, or, if there are none, by one without columns.  A registry that loads a
table without columns finds no schema, unless a fallback stands in. -/
def Describes (d : DocumentDatasource (StateM σ)) (table : String) (docs : List Record)
    (unique : List String) (w u : σ) : Prop :=
  ∃ s, runFrom (d.introspect table) w = (.ok s, u) ∧
    (docs ≠ [] → s.SumsUp table (docs.take 100) unique d.relations) ∧
    (docs = [] → s.columns = [] ∧ ∀ (cache : Cache (StateM σ)) (config : Config),
      runFrom ((SchemaRegistry.ofConfig d.datasource.source cache config).load table) w =
        (match if config.diagnosticMode then config.fallbackSchemas.get? table else none with
          | some fallback => .ok fallback
          | none => .error (.schemaNotFound table), u))

/-- A store that answers is described by what it answers. -/
theorem describes_of_answers {d : DocumentDatasource (StateM σ)} {table : String} {docs : List Record}
    {unique : List String} {w v u : σ}
    (found : runFrom (ask (d.store.find table (.object []) (.first 100))) w = (.ok (docs.take 100), v))
    (indexed : runFrom (ask (d.store.uniqueIndexes table)) v = (.ok unique, u)) :
    d.Describes table docs unique w u := by
  have run : runFrom (d.introspect table) w =
      (.ok (.inferred table unique d.relations (docs.take 100)), u) := by
    rw [introspect, runFrom_bind, sampleSize, found]
    simp only
    rw [runFrom_bind, indexed]
    rfl
  refine ⟨_, run, fun filled => ?_, ?_⟩
  · exact Schema.sumsUp_inferred table unique d.relations (by simpa using filled)
  · rintro rfl
    refine ⟨rfl, fun cache config => ?_⟩
    have asked : runFrom ((SchemaRegistry.ofConfig d.datasource.source cache config).source.introspect
        table) w = (.ok (.inferred table unique d.relations []), u) := run
    rw [SchemaRegistry.runFrom_load, asked]
    rfl

end DocumentDatasource

namespace Setting

open DataAccess.Action DocumentDatasource

/-- **A collection is described by its first documents, whatever the store.**  A store that answers is
enough, and the one in memory always does. -/
theorem introspect_describes (table : String) :
    (∀ {σ : Type} {d : DocumentDatasource (StateM σ)} {docs unique} {w v u : σ},
      runFrom (ask (d.store.find table (.object []) (.first 100))) w = (.ok (docs.take 100), v) →
      runFrom (ask (d.store.uniqueIndexes table)) v = (.ok unique, u) →
      d.Describes table docs unique w u) ∧
    ∀ (g : Setting) (w : World),
      g.documents.Describes table (w.documents table) (w.store.collection table).rules.unique w w := by
  refine ⟨describes_of_answers, fun g w => describes_of_answers ?_ rfl⟩
  have first : w.store.find table (.object []) (.first 100) = (w.documents table).take 100 :=
    w.store.find_unfiltered table 100
  rw [← first]
  rfl

/-- Two members, the first one without an age. -/
def members : World where
  store := [("members", ⟨[[("_id", .int 7), ("age", .null), ("email", .string "ada@x.io")],
    [("email", .string "bob@x.io"), ("since", .string "2024-05-01"), ("_id", .string "b"),
      ("age", .int 31)]], ⟨["email"], []⟩⟩)]
  cache := []
  issued := 0

/-- Their columns are the key, which is a text, and the others as they turn up; the age is a number. -/
theorem introspect_describes_members : ∃ s,
    runFrom (tally.documents.introspect "members") members = (.ok s, members) ∧
      s.validateStructure = .ok () ∧ s.columnNames = ["_id", "age", "email", "since"] ∧
      (∀ c ∈ s.columns, c.field = "age" → c.type = .number ∧ c.uniqueKey = false) ∧
      ∀ c ∈ s.columns, c.field = "email" → c.type = .string ∧ c.uniqueKey = true := by
  have described : tally.documents.Describes "members" (members.documents "members") ["email"]
      members members := (introspect_describes "members").1 rfl rfl
  obtain ⟨s, run, sums, -⟩ := described
  have summary := sums (by decide)
  refine ⟨s, run, summary.structured, summary.names.trans (by decide +kernel), ?_, ?_⟩
  · intro c member field
    have type := summary.types c member
    have flag := summary.flagged c member
    rw [field] at type flag
    exact ⟨type.trans (by decide +kernel), flag.trans (by decide)⟩
  · intro c member field
    have type := summary.types c member
    have flag := summary.flagged c member
    rw [field] at type flag
    exact ⟨type.trans (by decide +kernel), flag.trans (by decide)⟩

/-- The schema that is to stand in for a table of ghosts. -/
def ghosts : Schema :=
  .ofColumns "ghosts"
    [{ Column.plain documentKey .string with nullable := false, primaryKey := true }] []

/-- An engine in diagnostic mode. -/
def haunted : Setting :=
  { tally with config :=
      { Config.ofBackend .mongodb with diagnosticMode := true, fallbackSchemas := [("ghosts", ghosts)] } }

/-- A world without collections. -/
def vacant : World := ⟨[], [], 0⟩

/-- There are no ghosts, and no columns are shown; yet the table is served its fallback. -/
theorem haunted_served : haunted.config.validate = .ok () ∧ vacant.documents "ghosts" = [] ∧
    (∃ s, runFrom (haunted.documents.introspect "ghosts") vacant = (.ok s, vacant) ∧ s.columns = []) ∧
    (runFrom (haunted.engine.schema "ghosts") vacant).1 = .ok ghosts ∧
    (runFrom (haunted.engine.schema "ghosts") vacant).1 ≠ .error (.schemaNotFound "ghosts") := by
  have served : (runFrom (haunted.engine.schema "ghosts") vacant).1 = .ok ghosts := rfl
  refine ⟨rfl, rfl, ⟨_, rfl, rfl⟩, served, ?_⟩
  rw [served]
  exact fun same => by cases same

end Setting

end DataAccess
