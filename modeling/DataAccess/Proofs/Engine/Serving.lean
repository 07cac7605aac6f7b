import DataAccess.Proofs.Engine.InMemory
import DataAccess.Proofs.Schema.Codec
import DataAccess.Proofs.Schema.Registry
/-
**The schemas that are served.**  Over documents in memory the schema of a table is a function of the
world and of the time: the cached one while it lives, else the one that the documents show.  Asking
for it changes nothing but the cache, and there it leaves at most what the documents show.  So while
the documents stay and no cached schema gives way to a different one, every table is served the same
schema, whenever and in whatever order the schemas are asked for.

Main definitions:

* `Setting.cachedSchema`, `Setting.described` — the two places where a schema comes from;
* `Setting.Shows` — a schema that documents show;
* `Setting.served` — the schema that a table is served;
* `Setting.CacheKept` — what asking for a schema leaves of the cache;
* `Setting.Infers` — a table without a fallback, whose cached schema was inferred;
* `Setting.Serves` — a world that serves certain schemas at certain seconds;
* `Setting.Steady`, `Setting.Fresh` — a world that serves the same through some seconds, and one that
  caches nothing but what the documents show.

Main results:

* `Setting.runFrom_schema` — **what asking for a schema does**;
* `Setting.Infers.isInferred` — a table without a fallback is served an inferred schema;
* `Setting.answers_schema` — **schemas are settled while they are served**;
* `Setting.Fresh.steady` — where nothing else is cached, time does not matter.
-/

set_option autoImplicit false

namespace DataAccess

/-- An inferred schema reads back as itself. -/
theorem Schema.IsInferred.ofJson?_toJson {s : Schema} {table : String}
    (h : s.IsInferred table) : Schema.ofJson? s.toJson = some s := by
  obtain ⟨rest, columns, inferred⟩ := h.columns_eq
  have flagged : flaggedKey? s.columns = some documentKey := by
    rw [columns]
    rfl
  have key : s.primaryKey = documentKey := by
    obtain ⟨unique, declared, sample, -, eq⟩ := h
    have built : s.primaryKey = (flaggedKey? s.columns).getD "" := by
      rw [eq]
      rfl
    rw [built, flagged]
    rfl
  refine Schema.ofJson?_toJson (.inl (by rw [flagged, key])) fun c member n length => ?_
  rw [columns] at member
  rcases List.mem_cons.1 member with rfl | member
  · exact absurd length (by simp [keyColumn, Column.plain])
  · cases inferred c member with
    | field name type unique other => exact absurd length (by simp [Column.plain])

/-! ### Reading the cache -/

namespace MemoryCache

/-- What is read is the entry while it lives. -/
theorem read_fst (cache : MemoryCache) (now : Nat) (key : String) :
    (read cache now key).1 =
      (Keyed.get? cache key).bind fun entry => if now < entry.2 then some entry.1 else none := by
  rw [read]
  cases Keyed.get? cache key with
  | none => rfl
  | some entry =>
      obtain ⟨value, expires⟩ := entry
      rw [Option.bind_some]
      by_cases live : now < expires
      · simp only [if_pos live]
      · simp only [if_neg live]

/-- Reading an entry keeps all entries but this one, and drops this one only if it has expired. -/
theorem read_after_read (cache : MemoryCache) (now later : Nat) (key other : String) :
    (read (read cache now key).2 later other).1 = (read cache later other).1 ∨
      other = key ∧ (read cache now key).1 = none ∧
        (read (read cache now key).2 later other).1 = none := by
  cases entry : Keyed.get? cache key with
  | none => exact .inl (by simp [read, entry])
  | some stored =>
      obtain ⟨value, expires⟩ := stored
      by_cases live : now < expires
      · exact .inl (by simp [read, entry, live])
      · have dropped : (read cache now key).2 = Keyed.erase cache key := by
          simp [read, entry, live]
        have absent : (read cache now key).1 = none := by
          simp [read, entry, live]
        rw [dropped, absent, read_fst, read_fst, Keyed.get?_erase]
        by_cases same : other = key
        · exact .inr ⟨same, rfl, by rw [if_pos same]; rfl⟩
        · exact .inl (by rw [if_neg same])

/-- An entry that is written is read while it lives; the others are read as before. -/
theorem read_after_write (cache : MemoryCache) (now later ttl : Nat) (key other : String)
    (value : Json) : (read (write cache now key value ttl) later other).1 =
      if other = key then (if later < now + ttl then some value else none)
      else (read cache later other).1 := by
  by_cases same : other = key
  · subst same
    rw [if_pos rfl]
    split
    · next live => exact read_write_live live cache other value
    · next expired => exact read_write_expired (Nat.le_of_not_lt expired) cache other value
  · rw [if_neg same, read_fst, read_fst, write, Keyed.get?_insert_of_ne same]

end MemoryCache

namespace Setting

variable (g : Setting)

open DataAccess.Action

/-! ### The schema of a table -/

/-- The same engine at another second. -/
def atSecond (second : Nat) : Setting := { g with second }

/-- The schema that is cached for a table. -/
def cachedSchema (w : World) (table : String) : Option Schema :=
  (w.cache.read g.second (SchemaRegistry.cacheKey table)).1 >>= Schema.ofJson?

/-- The schema that the documents of a table show. -/
def shownSchema (w : World) (table : String) : Schema :=
  Schema.inferred table (w.store.collection table).rules.unique g.config.documentRelations
    (w.store.find table (.object []) (.first DocumentDatasource.sampleSize))

/-- What is answered when no schema is cached: the one that the documents show, if they show any. -/
def described (w : World) (table : String) : Outcome Schema :=
  if (g.shownSchema w table).columns.isEmpty then
    g.engine.registry.standIn table (.schemaNotFound table)
  else .ok (g.shownSchema w table)

/-- The schema that a table is served. -/
def served (w : World) (table : String) : Outcome Schema :=
  if table = "" then .error (.validation "Table name not provided")
  else
    match g.cachedSchema w table with
    | some s => .ok s
    | none => g.described w table

theorem isInferred_shownSchema {w : World} {table : String}
    (shown : (g.shownSchema w table).columns.isEmpty = false) :
    (g.shownSchema w table).IsInferred table := by
  refine ⟨_, _, _, fun none => ?_, rfl⟩
  rw [shownSchema, none] at shown
  exact absurd shown (by simp [Schema.inferred, Schema.ofColumns])

/-- The documents of a table show a schema. -/
def Shows (w : World) (table : String) (s : Schema) : Prop :=
  s = g.shownSchema w table ∧ s.columns.isEmpty = false

variable {g} in
theorem Shows.described {w : World} {table : String} {s : Schema} (shows : g.Shows w table s) :
    g.described w table = .ok s := by
  obtain ⟨rfl, filled⟩ := shows
  rw [Setting.described, filled, if_neg Bool.false_ne_true]

/-- Without a fallback, what the documents show is inferred. -/
theorem isInferred_of_described {w : World} {table : String}
    (alone : g.engine.registry.fallback? table = none) {s : Schema}
    (answer : g.described w table = .ok s) : s.IsInferred table := by
  rw [described] at answer
  cases empty : (g.shownSchema w table).columns.isEmpty with
  | true =>
      rw [if_pos empty, SchemaRegistry.standIn_none alone] at answer
      exact absurd answer (by simp)
  | false =>
      rw [empty, if_neg Bool.false_ne_true] at answer
      exact Except.ok.inj answer ▸ g.isInferred_shownSchema empty

/-- What the cache holds for a table after its schema was asked for: at every second what it held
before, or, if it held nothing, at most what the documents show. -/
def CacheKept (w v : World) (table : String) : Prop :=
  ∀ second other, (g.atSecond second).cachedSchema v other = (g.atSecond second).cachedSchema w other ∨
    other = table ∧ g.cachedSchema w table = none ∧
      ∀ s, (g.atSecond second).cachedSchema v other = some s → g.Shows w table s

/-- Looking into the cache. -/
theorem cacheKept_read {w : World} {table : String} {entry : Option Json} {cache : MemoryCache}
    (read : w.cache.read g.second (SchemaRegistry.cacheKey table) = (entry, cache)) :
    g.CacheKept w { w with cache } table := by
  intro second other
  have step := MemoryCache.read_after_read w.cache g.second second (SchemaRegistry.cacheKey table)
    (SchemaRegistry.cacheKey other)
  rw [read] at step
  rcases step with kept | ⟨same, absent, dropped⟩
  · refine .inl ?_
    rw [cachedSchema, cachedSchema]
    exact congrArg (· >>= Schema.ofJson?) kept
  · refine .inr ⟨SchemaRegistry.cacheKey_injective same, ?_, fun s found => ?_⟩
    · rw [cachedSchema, read]
      exact congrArg (· >>= Schema.ofJson?) absent
    · have nothing : (g.atSecond second).cachedSchema { w with cache } other = none :=
        congrArg (· >>= Schema.ofJson?) dropped
      rw [nothing] at found
      exact absurd found (by simp)

/-- The cache after a schema was looked for in vain: what the documents show is cached. -/
def refill (w : World) (table : String) (cache : MemoryCache) : MemoryCache :=
  if (g.shownSchema w table).columns.isEmpty then cache
  else cache.write g.second (SchemaRegistry.cacheKey table) (g.shownSchema w table).toJson
    g.config.schemaCacheTtl

theorem cacheKept_refill {w : World} {table : String} {entry : Option Json} {cache : MemoryCache}
    (read : w.cache.read g.second (SchemaRegistry.cacheKey table) = (entry, cache))
    (uncached : g.cachedSchema w table = none) :
    g.CacheKept w { w with cache := g.refill w table cache } table := by
  have looked := g.cacheKept_read read
  cases shown : (g.shownSchema w table).columns.isEmpty with
  | true =>
      rw [refill, shown, if_pos rfl]
      exact looked
  | false =>
      rw [refill, shown, if_neg Bool.false_ne_true]
      intro second other
      have stored := MemoryCache.read_after_write cache g.second second g.config.schemaCacheTtl
        (SchemaRegistry.cacheKey table) (SchemaRegistry.cacheKey other)
        (g.shownSchema w table).toJson
      by_cases same : other = table
      · refine .inr ⟨same, uncached, fun s found => ?_⟩
        rw [if_pos (congrArg SchemaRegistry.cacheKey same)] at stored
        -- what was just written is decoded, if it still lives at that second
        have decoded : (if second < g.second + g.config.schemaCacheTtl
            then some (g.shownSchema w table).toJson else none) >>= Schema.ofJson? = some s := by
          rw [← stored]
          exact found
        split at decoded
        · have back := (g.isInferred_shownSchema shown).ofJson?_toJson
          obtain rfl := Option.some.inj (back.symm.trans decoded)
          exact ⟨rfl, shown⟩
        · exact absurd decoded (by simp)
      · rcases looked second other with kept | ⟨is, -, -⟩
        · refine .inl ?_
          rw [← kept, cachedSchema, cachedSchema]
          rw [if_neg (SchemaRegistry.cacheKey_injective.ne same)] at stored
          exact congrArg (· >>= Schema.ofJson?) stored
        · exact absurd is same

/-- A schema is looked for in the cache first, and then among the documents. -/
theorem runFrom_schema_read {w : World} {table : String} (named : table ≠ "")
    {entry : Option Json} {cache : MemoryCache}
    (read : w.cache.read g.second (SchemaRegistry.cacheKey table) = (entry, cache)) :
    runFrom (g.engine.schema table) w = match g.cachedSchema w table with
      | some s => (.ok s, { w with cache })
      | none => (g.described w table, { w with cache := g.refill w table cache }) := by
  have asked : g.engine.registry.cache.get (SchemaRegistry.cacheKey table) w =
      (entry, { w with cache }) := by
    have looked : g.engine.registry.cache.get (SchemaRegistry.cacheKey table) w =
        ((w.cache.read g.second (SchemaRegistry.cacheKey table)).1,
          { w with cache := (w.cache.read g.second (SchemaRegistry.cacheKey table)).2 }) := rfl
    rw [looked, read]
  have decoded : entry >>= Schema.ofJson? = g.cachedSchema w table := by
    rw [cachedSchema, read]
  -- the registry reads the cache through the world, so both reads agree
  have run := g.engine.registry.runFrom_getSchema named w
  rw [asked] at run
  simp only [decoded] at run
  cases cached : g.cachedSchema w table with
  | some s =>
      rw [cached] at run
      exact run
  | none =>
      have shown : runFrom (g.engine.registry.source.introspect table) { w with cache } =
          (.ok (g.shownSchema w table), { w with cache }) := rfl
      rw [cached] at run
      simp only at run ⊢
      rw [SchemaRegistry.runFrom_load, shown] at run
      simp only at run
      rw [described, refill]
      cases empty : (g.shownSchema w table).columns.isEmpty with
      | true =>
          rw [empty, if_pos rfl] at run
          exact run
      | false =>
          rw [empty, if_neg Bool.false_ne_true] at run
          exact run

/-- **Asking for a schema answers what is served and changes nothing but the cache.**  There it leaves
at most what the documents show, and a schema that is no fallback is cached from then on. -/
theorem runFrom_schema (w : World) (table : String) :
    ∃ cache, runFrom (g.engine.schema table) w = (g.served w table, { w with cache }) ∧
      g.CacheKept w { w with cache } table ∧
      ∀ s, 0 < g.config.schemaCacheTtl → g.engine.registry.fallback? table = none →
        g.served w table = .ok s → g.cachedSchema { w with cache } table = some s := by
  by_cases nameless : table = ""
  · subst nameless
    refine ⟨w.cache, g.engine.registry.runFrom_getSchema_nameless none w,
      fun _ _ => .inl rfl, ?_⟩
    intro s _ _ answered
    exact absurd answered (by simp [served])
  · obtain ⟨entry, cache, read⟩ : ∃ entry cache, w.cache.read g.second
        (SchemaRegistry.cacheKey table) = (entry, cache) := ⟨_, _, rfl⟩
    have run := g.runFrom_schema_read nameless read
    rw [served, if_neg nameless]
    cases cached : g.cachedSchema w table with
    | some s =>
        rw [cached] at run
        have kept := g.cacheKept_read read
        refine ⟨cache, run, kept, fun s' _ _ answered => ?_⟩
        rcases kept g.second table with same | ⟨-, absent, -⟩
        · exact same.trans (cached.trans (congrArg some (Except.ok.inj answered)))
        · exact absurd (absent.symm.trans cached) (by simp)
    | none =>
        rw [cached] at run
        refine ⟨g.refill w table cache, run, g.cacheKept_refill read cached,
          fun s lives alone answered => ?_⟩
        have inferred := g.isInferred_of_described alone answered
        simp only [described] at answered
        split at answered
        -- no fallback stands in, so the documents show a schema and it was cached
        · rw [SchemaRegistry.standIn_none alone] at answered
          exact absurd answered (by simp)
        · next shown =>
          have living : g.second < g.second + g.config.schemaCacheTtl := by omega
          rw [cachedSchema, refill, if_neg shown, MemoryCache.read_write_live living,
            Except.ok.inj answered]
          exact inferred.ofJson?_toJson

/-- No fallback stands in for the table, and what is cached for it was inferred. -/
structure Infers (w : World) (table : String) : Prop where
  alone : g.engine.registry.fallback? table = none
  cached : ∀ s, g.cachedSchema w table = some s → s.IsInferred table

variable {g}

/-- Such a table is served an inferred schema, or none. -/
theorem Infers.isInferred {w : World} {table : String} (h : g.Infers w table) {s : Schema}
    (answer : g.served w table = .ok s) : s.IsInferred table := by
  rw [served] at answer
  split at answer
  · exact absurd answer (by simp)
  · cases cached : g.cachedSchema w table with
    | some cachedOne =>
        rw [cached] at answer
        exact Except.ok.inj answer ▸ h.cached cachedOne cached
    | none =>
        rw [cached] at answer
        exact g.isInferred_of_described h.alone answer

/-- A cached schema is served. -/
theorem served_of_cached {w : World} {table : String} (named : table ≠ "") {s : Schema}
    (cached : g.cachedSchema w table = some s) : g.served w table = .ok s := by
  rw [served, if_neg named, cached]

theorem named_of_served {w : World} {table : String} {s : Schema}
    (answer : g.served w table = .ok s) : table ≠ "" := by
  rintro rfl
  exact absurd answer (by simp [served])

/-! ### Schemas that stay -/

/-- At the seconds of a range, a world serves certain schemas from certain documents. -/
structure Serves (g : Setting) (range : Nat → Prop) (store : MemoryStore)
    (answer : String → Outcome Schema) (w : World) : Prop where
  store : w.store = store
  served : ∀ second, range second → ∀ table, (g.atSecond second).served w table = answer table

/-- What is cached for a table is served, else what is described. -/
theorem served_eq {w : World} {table : String} (named : table ≠ "") :
    g.served w table = match g.cachedSchema w table with
      | some s => .ok s
      | none => g.described w table := by
  rw [served, if_neg named]

/-- A world serves the same after it was asked for a schema. -/
theorem Serves.kept {range : Nat → Prop} {store : MemoryStore} {answer : String → Outcome Schema}
    {now : Nat} {w v : World} {table : String} (h : g.Serves range store answer w)
    (inside : range now) (same : v.store = w.store) (kept : (g.atSecond now).CacheKept w v table) :
    g.Serves range store answer v := by
  refine ⟨same.trans h.store, fun second member other => ?_⟩
  have before := h.served second member other
  have shown : (g.atSecond second).described v other = g.described w other := by
    rw [described, described, shownSchema, shownSchema, same]
    rfl
  have still (second : Nat) : (g.atSecond second).described w other = g.described w other := rfl
  by_cases nameless : other = ""
  · subst nameless
    exact before
  · rcases kept second other with alike | ⟨rfl, absent, within⟩
    · have alike : (g.atSecond second).cachedSchema v other =
        (g.atSecond second).cachedSchema w other := alike
      rw [← before, served_eq nameless, served_eq nameless, alike, shown, still]
    · -- what was served came from the documents, and so does what is served from now on
      have described : g.described w other = answer other := by
        rw [← h.served now inside other, served_eq nameless, absent, still]
      rw [served_eq nameless, shown]
      cases cached : (g.atSecond second).cachedSchema v other with
      | none => exact described
      | some s => exact (within s cached).described.symm.trans described

/-- **Schemas are settled while they are served.** -/
theorem answers_schema {range : Nat → Prop} {store : MemoryStore}
    {answer : String → Outcome Schema} {now : Nat} (inside : range now) (table : String) :
    Answers (g.Serves range store answer) ((g.atSecond now).engine.schema table)
      (answer table) := by
  intro w h
  obtain ⟨cache, run, kept, -⟩ := (g.atSecond now).runFrom_schema w table
  rw [h.served now inside table] at run
  have after : g.Serves range store answer { w with cache } := h.kept inside rfl kept
  exact ⟨{ w with cache }, run, after⟩

/-- At certain seconds every table is served the schema that it is served now. -/
def Steady (g : Setting) (w : World) (seconds : List Nat) : Prop :=
  ∀ second ∈ seconds, ∀ table, (g.atSecond second).served w table = g.served w table

theorem Steady.serves {w : World} {seconds : List Nat} (h : g.Steady w seconds) :
    g.Serves (· ∈ g.second :: seconds) w.store (g.served w) w := by
  refine ⟨rfl, fun second member table => ?_⟩
  rcases List.mem_cons.1 member with rfl | later
  · rfl
  · exact h second later table

/-- An instant is steady. -/
theorem steady_instant (w : World) (n : Nat) : g.Steady w (List.replicate n g.second) := by
  intro second member table
  rw [List.eq_of_mem_replicate member]
  rfl

/-- Nothing is cached but what the documents show. -/
def Fresh (g : Setting) (w : World) : Prop :=
  ∀ second table s, (g.atSecond second).cachedSchema w table = some s → g.described w table = .ok s

/-- Where nothing is cached but what the documents show, time does not matter. -/
theorem Fresh.steady {w : World} (h : g.Fresh w) (seconds : List Nat) : g.Steady w seconds := by
  intro second _ table
  by_cases nameless : table = ""
  · subst nameless
    rfl
  · have always (second : Nat) : (g.atSecond second).served w table = g.described w table := by
      rw [served_eq nameless]
      cases cached : (g.atSecond second).cachedSchema w table with
      | none => rfl
      | some s => exact (h second table s cached).symm
    exact (always second).trans (always g.second).symm

theorem fresh_of_uncached {w : World} (empty : w.cache = []) : g.Fresh w := by
  intro second table s cached
  rw [cachedSchema, empty] at cached
  exact absurd cached (by simp [MemoryCache.read])

/-- Asking for a schema caches nothing but what the documents show. -/
theorem Fresh.kept {now : Nat} {w v : World} {table : String} (h : g.Fresh w)
    (same : v.store = w.store) (kept : (g.atSecond now).CacheKept w v table) : g.Fresh v := by
  intro second other s cached
  have shown : g.described v other = g.described w other := by
    rw [described, described, shownSchema, shownSchema, same]
  rw [shown]
  rcases kept second other with alike | ⟨rfl, -, within⟩
  · exact h second other s (alike.symm.trans cached)
  · exact (within s cached).described

end Setting

end DataAccess
