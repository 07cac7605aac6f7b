import DataAccess.Proofs.Document.Stored
import DataAccess.Proofs.Engine.Serving
import DataAccess.Proofs.Query.Alike
/-
**Reading the documents that a schema was inferred from.**  The first value of a field that is not null
settles how the field is read.  So a document of the sample can be read exactly if each of its values
can be read by the type of the first one, and where the values of every field are of one kind the whole
collection can.

Main definitions:

* `ReadableAmong` — a document whose values can be read by the types that a collection shows;
* `Uniform` — documents with values of one kind in every field.

Main results:

* `exists_coerceRead_shown` — a value is read by the type that it shows itself;
* `Schema.readable_inferred_iff` — **what an inferred schema reads of its own sample**;
* `Uniform.readableAmong` — uniform documents are read;
* `Setting.reads_inferred` — **a small collection is read by its inferred schema exactly as far as it is
  readable**, and a page without conditions is then read without failure.
-/

set_option autoImplicit false

namespace DataAccess

/-! ### Documents among others -/

/-- Every value behind the key can be read by the type of the first value of its field, null aside, in
the collection. -/
def ReadableAmong (docs : List Record) (doc : Record) : Prop :=
  ∀ entry ∈ doc, entry.1 ≠ documentKey →
    ∃ v, coerceRead (shownType docs.flatten entry.1) entry.2 = .ok v

/-- In each field but the key, the values that are not null are of one stored type. -/
def Uniform (docs : List Record) : Prop :=
  ∀ a ∈ docs.flatten, ∀ b ∈ docs.flatten, a.1 = b.1 → a.1 ≠ documentKey →
    a.2.isNull = false → b.2.isNull = false → storedType a.2 = storedType b.2

/-- A value is read by the type that it shows itself. -/
theorem exists_coerceRead_shown (v : Json) :
    ∃ r, coerceRead (.ofStored (storedType v)) v = .ok r := by
  cases v with
  | null => exact ⟨.null, rfl⟩
  | bool b => exact ⟨.bool b, rfl⟩
  | number n => cases n <;> exact ⟨_, rfl⟩
  | string s =>
      rw [storedType]
      cases date : parseTimestamp (.string s) with
      | none => exact ⟨.string s, rfl⟩
      | some time =>
          have read : coerceRead .date (.string s) = .ok (.string time.iso) := by
            rw [coerceRead, if_neg (by simp [Json.isNull])]
            simp only [date]
          exact ⟨_, read⟩
  | array items => exact ⟨.array items, rfl⟩
  | object entries => exact ⟨.object entries, rfl⟩

/-- Documents with values of one kind in every field are readable among each other. -/
theorem Uniform.readableAmong {docs : List Record} (uniform : Uniform docs) {doc : Record}
    (member : doc ∈ docs) : ReadableAmong docs doc := by
  intro entry inside other
  have there : entry ∈ docs.flatten := List.mem_flatten.2 ⟨doc, member, inside⟩
  cases null : entry.2.isNull with
  | true => exact ⟨.null, by rw [Json.isNull_iff.1 null, coerceRead_null]⟩
  | false =>
      rw [shownType]
      cases found : docs.flatten.find? fun e => decide (e.1 = entry.1) && !e.2.isNull with
      | none =>
          have test := List.find?_eq_none.1 found entry there
          exact absurd test (by simp [null])
      | some first =>
          have test := List.find?_some found
          rw [Bool.and_eq_true, decide_eq_true_eq, Bool.not_eq_true'] at test
          have same := uniform first (List.mem_of_find?_eq_some found) entry there test.1
            (test.1.symm ▸ other) test.2 null
          dsimp only
          rw [same]
          exact exists_coerceRead_shown entry.2

namespace Schema

/-- An inferred schema reads a document of its sample exactly if the document is readable among the
others. -/
theorem readable_inferred_iff (table : String) (unique : List String) (declared : List Relation)
    {docs : List Record} {doc : Record} (member : doc ∈ docs) :
    (inferred table unique declared docs).Readable doc ↔ ReadableAmong docs doc := by
  have filled : docs ≠ [] := List.ne_nil_of_mem member
  have isInferred : (inferred table unique declared docs).IsInferred table :=
    ⟨unique, declared, docs, filled, rfl⟩
  have key (v : Json) : (inferred table unique declared docs).readField documentKey v = .ok v := by
    rw [readField, isInferred.column?_key]
    cases v <;> rfl
  have field {entry : String × Json} (inside : entry ∈ doc) (other : entry.1 ≠ documentKey) :
      (inferred table unique declared docs).readField entry.1 entry.2 =
        coerceRead (shownType docs.flatten entry.1) entry.2 := by
    have typed := typed_inferColumns unique docs entry.1 other
    have named : entry.1 ∈ Keyed.keys docs.flatten :=
      List.mem_map_of_mem (List.mem_flatten.2 ⟨doc, member, inside⟩)
    rw [if_pos named, Option.map_eq_some_iff] at typed
    obtain ⟨c, found, type⟩ := typed
    have column : (inferred table unique declared docs).column? entry.1 = some c := found
    rw [readField, column, ← type]
  constructor
  · intro readable entry inside other
    rw [← field inside other]
    exact readable entry inside
  · intro readable entry inside
    by_cases same : entry.1 = documentKey
    · rw [same]
      exact ⟨entry.2, key entry.2⟩
    · rw [field inside same]
      exact readable entry inside same

end Schema

/-- What is read out of a collection is some of its documents, cut down to the projection. -/
theorem MemoryStore.exists_stored_of_find {store : MemoryStore} {name : String} {filter : Filter}
    {read : StoreRead} {doc : Record} (found : doc ∈ store.find name filter read) :
    ∃ stored ∈ store.documents name, Collection.projected read.projection stored = doc := by
  obtain ⟨stored, member, same⟩ := List.mem_map.1 found
  have left : stored ∈ (sorted read.sort ((store.documents name).filter
      fun d => Filter.accepts d filter)).drop read.skip := by
    split at member
    · exact List.mem_of_mem_take member
    · exact member
  exact ⟨stored, (List.mem_filter.1 ((sorted_perm _ _).mem_iff.1 (List.mem_of_mem_drop left))).1, same⟩

namespace Setting

open DataAccess.Action DocumentDatasource

variable {g : Setting}

/-- The sample of a small collection is the whole collection. -/
theorem shownSchema_of_few {w : World} {table : String}
    (few : (w.documents table).length ≤ sampleSize) :
    g.shownSchema w table = Schema.inferred table (w.store.collection table).rules.unique
      g.config.documentRelations (w.documents table) := by
  have all : w.store.find table (.object []) (.first sampleSize) = w.documents table :=
    (w.store.find_unfiltered table sampleSize).trans (List.take_of_length_le few)
  rw [shownSchema, all]

/-- A readable document is finished without relations, whichever fields are asked for. -/
theorem answers_finishRow {s : Schema} {doc : Record} (readable : s.Readable doc)
    (fields : Option (List String)) {inv : World → Prop} :
    ∃ r, Answers inv (g.documents.finishRow s fields [] doc) (.ok r) := by
  have cut : s.Readable (keepFields fields doc) := by
    intro entry inside
    rw [keepFields] at inside
    split at inside
    · exact readable entry inside
    · exact readable entry (List.mem_filter.1 inside).1
  obtain ⟨r, shaped⟩ := Schema.exists_shapeRow.2 cut
  refine ⟨r, (answers_pure doc).bind ?_⟩
  rw [shaped]
  exact answers_liftExcept _

theorem answers_finishRows {s : Schema} {docs : List Record}
    (readable : ∀ doc ∈ docs, s.Readable doc) (fields : Option (List String)) {inv : World → Prop} :
    ∃ rows, Answers inv (docs.mapM (g.documents.finishRow s fields [])) (.ok rows) := by
  induction docs with
  | nil => exact ⟨[], answers_pure []⟩
  | cons doc rest ih =>
      obtain ⟨here, there⟩ := List.forall_mem_cons.1 readable
      obtain ⟨row, first⟩ := answers_finishRow here fields
      obtain ⟨rows, others⟩ := ih there
      refine ⟨row :: rows, ?_⟩
      rw [List.mapM_cons]
      exact first.bind (others.bind (answers_pure _))

/-- Where all documents of a collection are readable, a page without conditions and relations is read. -/
theorem answers_findMany_unfiltered {s : Schema} {store : MemoryStore} {inv : World → Prop}
    (holds : ∀ w, inv w → w.store = store)
    (readable : ∀ doc ∈ store.documents s.table, s.Readable doc) {q : PageQuery}
    (unfiltered : q.conditions = []) (unrelated : q.relations = []) :
    ∃ page, Answers inv (g.documents.findMany s q) (.ok page) := by
  have filter : Answers inv (g.documents.compileFilter s q.conditions q.relations)
      (.ok (.all [])) := by
    rw [unfiltered]
    exact answers_pure _
  have count := answers_count (g := g) holds s.table (.all [])
  by_cases nothing : store.count s.table (.all []) = 0
  · rw [nothing] at count
    exact ⟨_, filter.bind (count.bind (answers_pure _))⟩
  · have found : ∀ doc ∈ store.find s.table (.all []) ⟨sortFields q.sort, q.offset.getD 0,
        some (q.limit.getD g.documents.defaultLimit), none⟩, s.Readable doc := by
      intro doc found
      obtain ⟨stored, member, rfl⟩ := MemoryStore.exists_stored_of_find found
      exact readable stored member
    obtain ⟨rows, finished⟩ : ∃ rows, Answers inv
        ((store.find s.table (.all []) ⟨sortFields q.sort, q.offset.getD 0,
          some (q.limit.getD g.documents.defaultLimit), none⟩).mapM
            (g.documents.finishRow s q.fields [])) (.ok rows) := answers_finishRows found q.fields
    refine ⟨⟨rows, store.count s.table (.all []), q.limit.getD g.documents.defaultLimit,
      q.offset.getD 0⟩, filter.bind (count.bind ?_)⟩
    rw [if_neg nothing, unrelated]
    exact (answers_find holds _ _ _).bind (finished.bind (answers_pure _))

/-- **A small collection is read by its inferred schema exactly as far as it is readable.**  Where all of
it is, as it is when the values of every field are of one kind, a request for a page without conditions
and relations does not fail. -/
theorem reads_inferred {w : World} {table : String}
    (few : (w.documents table).length ≤ sampleSize) :
    ∃ s, runFrom (g.documents.introspect table) w = (.ok s, w) ∧
      (∀ doc ∈ w.documents table,
        (∃ r, s.shapeRow [] doc = .ok r) ↔ ReadableAmong (w.documents table) doc) ∧
      (Uniform (w.documents table) →
        ∀ doc ∈ w.documents table, ReadableAmong (w.documents table) doc) ∧
      ((∀ doc ∈ w.documents table, ReadableAmong (w.documents table) doc) →
        g.served w table = .ok s → ∀ params q, (runFrom (g.engine.query s params) w).1 = .ok q →
        q.conditions = [] → q.relations = [] →
        ∃ page, (runFrom (g.engine.perform (.findMany table params)) w).1 = .ok (.page page)) := by
  have reads {doc : Record} (member : doc ∈ w.documents table) :
      (g.shownSchema w table).Readable doc ↔ ReadableAmong (w.documents table) doc := by
    rw [shownSchema_of_few few]
    exact Schema.readable_inferred_iff table _ _ member
  refine ⟨g.shownSchema w table, rfl, ?_, fun uniform doc => uniform.readableAmong, ?_⟩
  · intro doc member
    rw [Schema.exists_shapeRow, reads member]
  · intro readable served params q query unfiltered unrelated
    -- while the request is read, the same schemas are served from the same documents
    have serves : g.Serves (· ∈ [g.second]) w.store (g.served w) w := (steady_instant w 0).serves
    have schemas (_ : Unit) (other : String) :
        Answers (g.Serves (· ∈ [g.second]) w.store (g.served w))
          (g.engine.registry.getSchema other none) (g.served w other) :=
      answers_schema List.mem_cons_self other
    obtain ⟨result, parses⟩ := SchemaRegistry.exists_answers_parseQuery schemas g.config.limits
      (g.shownSchema w table) params
    have parsed : result = .ok q := ((parses ()).result serves).symm.trans query
    have schema := schemas () table
    rw [served] at schema
    obtain ⟨page, answered⟩ : ∃ page, Answers (g.Serves (· ∈ [g.second]) w.store (g.served w))
        (g.documents.findMany (g.shownSchema w table) q.page) (.ok page) :=
      answers_findMany_unfiltered (fun _ h => h.store)
        (fun doc member => (reads member).2 (readable doc member)) unfiltered unrelated
    refine ⟨page, ?_⟩
    have performed : Answers (g.Serves (· ∈ [g.second]) w.store (g.served w))
        (g.engine.perform (.findMany table params)) (.ok (.page page)) :=
      schema.bind ((parsed ▸ parses ()).bind (answered.map Reply.page))
    exact performed.result serves

/-! ### Sizes -/

/-- Three shirts, of which the last one has no size. -/
def shirts (first second : Json) : World where
  store := [("shirts", ⟨[[("_id", .string "a"), ("size", first)],
    [("_id", .string "b"), ("size", second)], [("_id", .string "c"), ("size", .null)]], ⟨[], []⟩⟩)]
  cache := []
  issued := 0

/-- Shirts with sizes in numbers are read. -/
theorem reads_inferred_shirts : ∃ s page,
    runFrom (tally.documents.introspect "shirts") (shirts (.int 1) (.int 2)) =
      (.ok s, shirts (.int 1) (.int 2)) ∧
    (∀ doc ∈ (shirts (.int 1) (.int 2)).documents "shirts", ∃ r, s.shapeRow [] doc = .ok r) ∧
    (runFrom (tally.engine.perform (.findMany "shirts" [("sort", "size.asc")]))
      (shirts (.int 1) (.int 2))).1 = .ok (.page page) := by
  have sizes : ∀ entry ∈ ((shirts (.int 1) (.int 2)).documents "shirts").flatten,
      entry.1 ≠ documentKey → entry.2.isNull = false → storedType entry.2 = "long" := by
    have stored : ((shirts (.int 1) (.int 2)).documents "shirts").flatten =
        [("_id", .string "a"), ("size", .int 1), ("_id", .string "b"), ("size", .int 2),
          ("_id", .string "c"), ("size", .null)] := rfl
    rw [stored]
    simp only [List.forall_mem_cons, List.not_mem_nil, false_imp_iff, implies_true, and_true]
    decide +kernel
  have uniform : Uniform ((shirts (.int 1) (.int 2)).documents "shirts") := by
    intro a here b there same other filled filled'
    exact (sizes a here other filled).trans (sizes b there (same ▸ other) filled').symm
  obtain ⟨s, shown, reads, uniformly, pages⟩ :=
    @reads_inferred tally (shirts (.int 1) (.int 2)) "shirts" (by decide)
  obtain rfl : tally.shownSchema (shirts (.int 1) (.int 2)) "shirts" = s :=
    Except.ok.inj (congrArg Prod.fst shown)
  have asked : (runFrom (tally.engine.query (tally.shownSchema (shirts (.int 1) (.int 2)) "shirts")
      [("sort", "size.asc")]) (shirts (.int 1) (.int 2))).1.toOption.any
        (fun q => q.conditions.isEmpty && q.relations.isEmpty) = true := by
    decide +kernel
  obtain ⟨q, v, query, free⟩ := exists_returns asked
  rw [Bool.and_eq_true, List.isEmpty_iff, List.isEmpty_iff] at free
  obtain ⟨page, answered⟩ := pages (uniformly uniform) rfl [("sort", "size.asc")] q
    (congrArg Prod.fst query) free.1 free.2
  refine ⟨_, page, shown, ?_, answered⟩
  intro doc member
  exact (reads doc member).2 (uniformly uniform doc member)

/-- The first shirt has its size in numbers, so the size of the second one cannot be read, and no page
of shirts can. -/
theorem unread_sizes : ((shirts (.int 1) (.string "large")).documents "shirts").length ≤ sampleSize ∧
    ∃ s, runFrom (tally.documents.introspect "shirts") (shirts (.int 1) (.string "large")) =
        (.ok s, shirts (.int 1) (.string "large")) ∧
      (∃ doc ∈ (shirts (.int 1) (.string "large")).documents "shirts",
        s.shapeRow [] doc = .error (unreadable (.string "large") "number")) ∧
      (runFrom (tally.engine.perform (.findMany "shirts" [])) (shirts (.int 1) (.string "large"))).1 =
        .error (unreadable (.string "large") "number") := by
  refine ⟨by decide, tally.shownSchema (shirts (.int 1) (.string "large")) "shirts", rfl, ?_, ?_⟩
  · refine ⟨[("_id", .string "b"), ("size", .string "large")], ?_, ?_⟩
    · simp [shirts, World.documents, MemoryStore.documents, MemoryStore.collection]
    · exact Outcome.failsWith_iff.1 (by decide +kernel)
  · exact Outcome.failsWith_iff.1 (by decide +kernel)

end Setting

end DataAccess
