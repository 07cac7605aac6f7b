import DataAccess.Proofs.Schema.Codec
import DataAccess.Proofs.Schema.Registry
import DataAccess.Proofs.Json.Keyed
/-
**Requests for schemas side by side.**  A request reads the cache, asks the source if it found nothing,
and writes the cache.  Between these steps other requests may take theirs, entries may expire, and the
source may fail for one request and answer another.  The steps are those of the registry itself, which
is run on a cache and a source that only note what they are asked for.

Main definitions:

* `Steps` — an operation broken into what it asks for;
* `SchemaRegistry.stepwise`, `Steps.interpret` — a registry that notes its steps, and steps that are
  taken one after another;
* `Inquiry`, `Traffic`, `Event` — requests on their way, with the cache that they share;
* `Schema.Restricts`, `SchemaRegistry.Rightly` — what a request may be answered;
* `Steps.Keeps` — steps that keep the cache and end rightly whatever happens between them.

Main results:

* `SchemaRegistry.interpret_getSchema` — uninterrupted, the steps are the operation;
* `SchemaRegistry.keeps_getSchema` — the steps of a request keep the cache and end rightly;
* `Inquiry.sound_step`, `Traffic.Sound.after` — what one step and one event preserve;
* `Traffic.transparent` — **in every interleaving requests are answered rightly, and the cache holds
  nothing but whole schemas of the source**.
-/

set_option autoImplicit false

namespace DataAccess

/-! ### Operations step by step -/

/-- An operation of the registry as a tree of steps: what it asks for next, and how it goes on with the
answer. -/
inductive Steps (α : Type) : Type
  | done (a : α)
  /-- Looks for a live entry of the cache. -/
  | read (key : String) (next : Option Json → Steps α)
  /-- Stores an entry for some seconds. -/
  | write (key : String) (value : Json) (ttl : Nat) (next : Steps α)
  /-- Has the source describe a table. -/
  | ask (table : String) (next : Outcome Schema → Steps α)

namespace Steps

variable {α β : Type}

/-- Steps that go on with other steps. -/
def bind : Steps α → (α → Steps β) → Steps β
  | done a, f => f a
  | read key next, f => read key fun entry => (next entry).bind f
  | write key value ttl next, f => write key value ttl (next.bind f)
  | ask table next, f => ask table fun answer => (next answer).bind f

instance : Monad Steps where
  pure := done
  bind := bind

/-- The result, if no step is left. -/
def result? : Steps α → Option α
  | done a => some a
  | read _ _ | write _ _ _ _ | ask _ _ => none

/-- The steps one after another, on the cache and the source of a registry. -/
def interpret {m : Type → Type} [Monad m] (r : SchemaRegistry m) : Steps α → m α
  | done a => pure a
  | read key next => do
    let entry ← r.cache.get key
    interpret r (next entry)
  | write key value ttl next => do
    r.cache.set key value ttl
    interpret r next
  | ask table next => do
    let answer ← (r.source.introspect table).run
    interpret r (next answer)

end Steps

namespace SchemaRegistry

variable {m : Type → Type} (r : SchemaRegistry m)

/-- The same registry on a cache and a source that note what they are asked for. -/
def stepwise : SchemaRegistry Steps where
  source := ⟨fun table => ExceptT.mk (.ask table .done)⟩
  cache :=
    { get := fun key => .read key .done
      set := fun key value ttl => .write key value ttl (.done ()) }
  ttl := r.ttl
  diagnosticMode := r.diagnosticMode
  fallbacks := r.fallbacks

/-- What is answered to a request that the source failed. -/
def substitute (table : String) (fields : Option (List String)) (e : DataError) : Outcome Schema :=
  match r.fallback? table with
  | some s => .ok (restrict s fields)
  | none => .error e

/-- The steps of a request that found nothing in the cache. -/
def fetch (table : String) (fields : Option (List String)) : Steps (Outcome Schema) :=
  .ask table fun
    | .ok s =>
      if s.columns.isEmpty then .done (r.substitute table fields (.schemaNotFound table))
      else .write (cacheKey table) s.toJson r.ttl (.done (.ok (restrict s fields)))
    | .error e => .done (r.substitute table fields e)

/-- A request that found nothing in the cache fetches the schema. -/
theorem stepwise_load (table : String) (fields : Option (List String)) :
    (do return restrict (← r.stepwise.load table) fields : ExceptT DataError Steps Schema).run =
      r.fetch table fields := by
  have substituted (e : DataError) :
      ((match r.stepwise.fallback? table with
        | some s => (return s : ExceptT DataError Steps Schema)
        | none => throw e) >>= fun s => pure (restrict s fields)).run =
      .done (r.substitute table fields e) := by
    have same : r.stepwise.fallback? table = r.fallback? table := rfl
    rw [same, substitute]
    cases r.fallback? table <;> rfl
  refine congrArg (Steps.ask table) (funext fun answer => ?_)
  cases answer with
  | error e => exact substituted e
  | ok s =>
      change Steps.bind (Steps.bind _ _) _ = _
      dsimp only [Steps.bind, Function.comp, ExceptT.bindCont]
      cases empty : s.columns.isEmpty with
      | true =>
          simp only [bind, Except.bind, empty, if_true, throw, throwThe, MonadExceptOf.throw]
          exact substituted _
      | false =>
          simp only [bind, Except.bind, empty, Bool.false_eq_true, if_false, pure, Except.pure]
          rfl

/-- **The steps of a request:** it looks into the cache, and fetches what it does not find there. -/
theorem stepwise_getSchema {table : String} (named : table ≠ "") (fields : Option (List String)) :
    (r.stepwise.getSchema table fields).run = .read (cacheKey table) fun entry =>
      match entry >>= Schema.ofJson? with
      | some s => .done (.ok (restrict s fields))
      | none => r.fetch table fields := by
  rw [getSchema, if_neg named]
  refine congrArg (Steps.read (cacheKey table)) (funext fun entry => ?_)
  change Steps.bind (Steps.bind _ _) _ = _
  dsimp only [Steps.bind, Function.comp, ExceptT.bindCont, pure]
  cases entry >>= Schema.ofJson? with
  | some s => rfl
  | none => exact r.stepwise_load table fields

theorem stepwise_getSchema_nameless (fields : Option (List String)) :
    (r.stepwise.getSchema "" fields).run =
      .done (.error (.validation "Table name not provided")) := rfl

/-- **Uninterrupted, the steps of a request are the request.** -/
theorem interpret_getSchema [Monad m] [LawfulMonad m] (table : String)
    (fields : Option (List String)) :
    (r.stepwise.getSchema table fields).run.interpret r = (r.getSchema table fields).run := by
  have substituted (e : DataError) : (pure (r.substitute table fields e) : m (Outcome Schema)) =
      ((match r.fallback? table with
        | some s => (pure s : ExceptT DataError m Schema)
        | none => throw e) >>= fun s => pure (restrict s fields)).run := by
    rw [substitute, ExceptT.run_bind]
    cases r.fallback? table with
    | some s => rw [ExceptT.run_pure, pure_bind]; rfl
    | none => rw [ExceptT.run_throw, pure_bind]
  by_cases nameless : table = ""
  · subst nameless
    rw [r.stepwise_getSchema_nameless, Steps.interpret, getSchema, if_pos rfl, ExceptT.run_bind,
      ExceptT.run_throw, pure_bind]
  · rw [r.stepwise_getSchema nameless, Steps.interpret, getSchema, if_neg nameless,
      ExceptT.run_bind, ExceptT.run_lift, cached]
    simp only [map_eq_pure_bind, bind_assoc, pure_bind]
    refine bind_congr fun entry => ?_
    cases entry >>= Schema.ofJson? with
    | some s => rfl
    | none =>
        simp only [fetch, Steps.interpret, load, ExceptT.run_bind, ExceptT.run_lift,
          map_eq_pure_bind, bind_assoc, pure_bind]
        refine bind_congr fun answer => ?_
        cases answer with
        | error e => exact (substituted e).trans (ExceptT.run_bind _ _)
        | ok s =>
            cases empty : s.columns.isEmpty with
            | true =>
                simp only [bind, Except.bind, empty, if_true, throw, throwThe, MonadExceptOf.throw]
                exact (substituted _).trans (ExceptT.run_bind _ _)
            | false =>
                have stored : (do
                    ExceptT.lift (r.cache.set (cacheKey table) s.toJson r.ttl)
                    return s : ExceptT DataError m Schema).run =
                    (do r.cache.set (cacheKey table) s.toJson r.ttl; pure (.ok s)) := by
                  rw [ExceptT.run_bind, ExceptT.run_lift, map_eq_pure_bind, bind_assoc]
                  simp only [pure_bind]
                  rfl
                simp only [bind, Except.bind, empty, Bool.false_eq_true, if_false, pure,
                  Except.pure, Steps.interpret] at stored ⊢
                rw [stored]
                simp only [bind_assoc, pure_bind]
                rfl

end SchemaRegistry

/-! ### Requests on their way -/

/-- A request on its way. -/
structure Inquiry where
  table : String
  fields : Option (List String)
  /-- What the source answered to this very request, once it was asked. -/
  heard : Option (Outcome Schema)
  /-- The steps that are left. -/
  rest : Steps (Outcome Schema)

/-- A request that has taken no step. -/
def Inquiry.start {m : Type → Type} (r : SchemaRegistry m) (table : String)
    (fields : Option (List String)) : Inquiry :=
  ⟨table, fields, none, (r.stepwise.getSchema table fields).run⟩

/-- The next step of a request.  The source has one schema for each table, and it answers with that
schema or fails. -/
def Inquiry.step (source : String → Schema) (second : Nat) (failure : Option DataError)
    (cache : MemoryCache) (q : Inquiry) : MemoryCache × Inquiry :=
  match q.rest with
  | .done _ => (cache, q)
  | .read key next =>
    let (entry, cache) := cache.read second key
    (cache, { q with rest := next entry })
  | .write key value ttl next => (cache.write second key value ttl, { q with rest := next })
  | .ask table next =>
    let answer : Outcome Schema := match failure with
      | none => .ok (source table)
      | some e => .error e
    (cache, { q with heard := some answer, rest := next answer })

/-- Requests on their way and the cache that they share. -/
structure Traffic where
  cache : MemoryCache
  inquiries : List Inquiry

/-- What may happen next. -/
inductive Event
  | arrives (table : String) (fields : Option (List String))
  /-- Some request takes its next step at some second; if it asks the source, this may fail. -/
  | proceeds (index second : Nat) (failure : Option DataError)
  /-- An entry is lost: it expired, or it was dropped for one that had expired. -/
  | lapses (key : String)

namespace Traffic

/-- No requests, and nothing cached. -/
def idle : Traffic := ⟨[], []⟩

/-- What an event leaves. -/
def after {m : Type → Type} (r : SchemaRegistry m) (source : String → Schema) (t : Traffic) :
    Event → Traffic
  | .arrives table fields => { t with inquiries := t.inquiries ++ [.start r table fields] }
  | .proceeds index second failure =>
    match t.inquiries[index]? with
    | none => t
    | some q =>
      let (cache, q) := q.step source second failure t.cache
      ⟨cache, t.inquiries.set index q⟩
  | .lapses key => { t with cache := Keyed.erase t.cache key }

end Traffic

/-! ### Right answers -/

/-- A schema as it is answered to a request for some fields: exactly if fields are given, the columns
are cut to these fields and the primary key.  Nothing else is cut. -/
structure Schema.Restricts (part whole : Schema) (fields : Option (List String)) : Prop where
  table : part.table = whole.table
  primaryKey : part.primaryKey = whole.primaryKey
  relations : part.relations = whole.relations
  all : fields.getD [] = [] → part.columns = whole.columns
  some : fields.getD [] ≠ [] → part.columns =
    whole.columns.filter fun c => c.primaryKey || (fields.getD []).contains c.field

namespace SchemaRegistry

variable {m : Type → Type} (r : SchemaRegistry m) (source : String → Schema)

/-- What a request may be answered, by what the source answered to it: the schema of the source, or a
fallback if the source failed this very request. -/
def Rightly (table : String) (fields : Option (List String)) (heard : Option (Outcome Schema)) :
    Outcome Schema → Prop
  | .ok s => s.Restricts (source table) fields ∨ ∃ e whole, heard = some (.error e) ∧
      r.diagnosticMode = true ∧ r.fallbacks.get? table = some whole ∧ s.Restricts whole fields
  | .error e => table = "" ∧ e = .validation "Table name not provided" ∨
      heard = some (.error e) ∧ r.fallback? table = none

/-- An entry of the cache that is a whole schema of the source. -/
def Whole (key : String) (value : Json) : Prop :=
  ∃ table, key = cacheKey table ∧ value = (source table).toJson

theorem restrict_restricts (s : Schema) (fields : Option (List String)) :
    (restrict s fields).Restricts s fields := by
  cases fields with
  | none => exact ⟨rfl, rfl, rfl, fun _ => rfl, fun given => absurd rfl given⟩
  | some fields =>
      cases fields with
      | nil => exact ⟨rfl, rfl, rfl, fun _ => rfl, fun given => absurd rfl given⟩
      | cons field rest =>
          exact ⟨rfl, rfl, rfl, fun none => absurd none (List.cons_ne_nil field rest), fun _ => rfl⟩

/-- A request that the source failed is answered a fallback, or the failure. -/
theorem rightly_substitute (table : String) (fields : Option (List String)) (e : DataError) :
    r.Rightly source table fields (some (.error e)) (r.substitute table fields e) := by
  rw [substitute]
  cases stand : r.fallback? table with
  | none => exact .inr ⟨rfl, stand⟩
  | some whole =>
      rw [fallback?] at stand
      split at stand
      · next diagnostic =>
        exact .inr ⟨e, whole, rfl, diagnostic, stand, restrict_restricts whole fields⟩
      · exact absurd stand (by simp)

end SchemaRegistry

/-- Steps that write only certain entries and end in a certain way, as long as what they read is such
an entry and the source answers with its one schema or fails.  `heard` is what it answered last. -/
def Steps.Keeps {α : Type} (source : String → Schema) (entry : String → Json → Prop)
    (post : Option (Outcome Schema) → α → Prop) (heard : Option (Outcome Schema)) :
    Steps α → Prop
  | .done a => post heard a
  | .read key next => ∀ found, (∀ value, found = some value → entry key value) →
      Keeps source entry post heard (next found)
  | .write key value _ next => entry key value ∧ Keeps source entry post heard next
  | .ask table next => ∀ answer, answer = .ok (source table) ∨ (∃ e, answer = .error e) →
      Keeps source entry post (some answer) (next answer)

namespace SchemaRegistry

variable {m : Type → Type} (r : SchemaRegistry m) {source : String → Schema}

theorem keeps_fetch (columns : ∀ table, (source table).columns ≠ []) (table : String)
    (fields : Option (List String)) :
    (r.fetch table fields).Keeps source (Whole source) (r.Rightly source table fields) none := by
  intro answer heard
  rcases heard with rfl | ⟨e, rfl⟩
  · have present : (source table).columns.isEmpty = false :=
      List.isEmpty_eq_false_iff.2 (columns table)
    simp only [present, Bool.false_eq_true, if_false]
    exact ⟨⟨table, rfl, rfl⟩, .inl (restrict_restricts (source table) fields)⟩
  · exact r.rightly_substitute source table fields e

/-- **Whatever happens between its steps, a request caches whole schemas and is answered rightly.** -/
theorem keeps_getSchema (built : ∀ table, (source table).Built)
    (columns : ∀ table, (source table).columns ≠ []) (table : String)
    (fields : Option (List String)) :
    (r.stepwise.getSchema table fields).run.Keeps source (Whole source)
      (r.Rightly source table fields) none := by
  by_cases nameless : table = ""
  · subst nameless
    exact .inl ⟨rfl, rfl⟩
  · rw [r.stepwise_getSchema nameless]
    intro found whole
    cases found with
    | none => exact r.keeps_fetch columns table fields
    | some value =>
        obtain ⟨other, same, rfl⟩ := whole value rfl
        have back := (built other).ofJson?_toJson
        rw [← cacheKey_injective same] at back ⊢
        simp only [Option.bind_eq_bind, Option.bind_some, back]
        exact .inl (restrict_restricts (source table) fields)

end SchemaRegistry

/-! ### Every interleaving -/

namespace MemoryCache

/-- What is read is an entry of the cache. -/
theorem mem_of_read {cache : MemoryCache} {now : Nat} {key : String} {value : Json}
    (found : (cache.read now key).1 = some value) : ∃ expires, (key, value, expires) ∈ cache := by
  rw [read] at found
  cases stored : Keyed.get? cache key with
  | none =>
      rw [stored] at found
      exact absurd found (by simp)
  | some entry =>
      obtain ⟨held, expires⟩ := entry
      rw [stored] at found
      simp only at found
      split at found
      · exact ⟨expires, Option.some.inj found ▸ Keyed.mem_of_get? stored⟩
      · exact absurd found (by simp)

/-- Reading adds no entry. -/
theorem mem_of_mem_read {cache : MemoryCache} {now : Nat} {key : String}
    {entry : String × Json × Nat} (member : entry ∈ (cache.read now key).2) : entry ∈ cache := by
  rw [read] at member
  cases stored : Keyed.get? cache key with
  | none =>
      rw [stored] at member
      exact member
  | some held =>
      rw [stored] at member
      simp only at member
      split at member
      · exact member
      · exact (List.mem_filter.1 member).1

end MemoryCache

open SchemaRegistry (Whole)

/-- Only whole schemas are cached, and every request goes on rightly. -/
structure Traffic.Sound {m : Type → Type} (r : SchemaRegistry m) (source : String → Schema)
    (t : Traffic) : Prop where
  cached : ∀ entry ∈ t.cache, Whole source entry.1 entry.2.1
  inquiries : ∀ q ∈ t.inquiries,
    q.rest.Keeps source (Whole source) (r.Rightly source q.table q.fields) q.heard

variable {m : Type → Type} {r : SchemaRegistry m} {source : String → Schema}

/-- One step of a request leaves only whole schemas in the cache, and the request goes on rightly. -/
theorem Inquiry.sound_step {cache : MemoryCache} {q : Inquiry}
    (cached : ∀ entry ∈ cache, Whole source entry.1 entry.2.1)
    (keeps : q.rest.Keeps source (Whole source) (r.Rightly source q.table q.fields) q.heard)
    (second : Nat) (failure : Option DataError) :
    (∀ entry ∈ (q.step source second failure cache).1, Whole source entry.1 entry.2.1) ∧
      let q := (q.step source second failure cache).2
      q.rest.Keeps source (Whole source) (r.Rightly source q.table q.fields) q.heard := by
  obtain ⟨table, fields, heard, rest⟩ := q
  cases rest with
  | done answer => exact ⟨cached, keeps⟩
  | read key next =>
      refine ⟨fun entry member => cached entry ?_, keeps _ fun value found => ?_⟩
      · exact MemoryCache.mem_of_mem_read member
      · obtain ⟨expires, member⟩ := MemoryCache.mem_of_read found
        exact cached _ member
  | write key value ttl next =>
      refine ⟨fun entry member => ?_, keeps.2⟩
      rcases Keyed.mem_of_mem_insert member with old | rfl
      · exact cached entry old
      · exact keeps.1
  | ask asked next =>
      refine ⟨cached, keeps _ ?_⟩
      cases failure with
      | none => exact .inl rfl
      | some e => exact .inr ⟨e, rfl⟩

namespace Traffic

/-- Every event keeps the traffic sound. -/
theorem Sound.after (built : ∀ table, (source table).Built)
    (columns : ∀ table, (source table).columns ≠ []) {t : Traffic} (h : t.Sound r source)
    (event : Event) : (t.after r source event).Sound r source := by
  cases event with
  | arrives table fields =>
      refine ⟨h.cached, fun q member => ?_⟩
      rcases List.mem_append.1 member with old | new
      · exact h.inquiries q old
      · rw [List.mem_singleton.1 new]
        exact r.keeps_getSchema built columns table fields
  | lapses key =>
      exact ⟨fun entry member => h.cached entry (List.mem_filter.1 member).1, h.inquiries⟩
  | proceeds index second failure =>
      rw [Traffic.after]
      cases found : t.inquiries[index]? with
      | none => exact h
      | some q =>
          have step := Inquiry.sound_step h.cached
            (h.inquiries q (List.mem_of_getElem? found)) second failure
          refine ⟨step.1, fun other member => ?_⟩
          rcases List.mem_or_eq_of_mem_set member with old | rfl
          · exact h.inquiries other old
          · exact step.2

theorem sound_idle : idle.Sound r source :=
  ⟨fun _ member => absurd member (by simp [idle]), fun _ member => absurd member (by simp [idle])⟩

theorem Sound.run (built : ∀ table, (source table).Built)
    (columns : ∀ table, (source table).columns ≠ []) {t : Traffic} (h : t.Sound r source)
    (events : List Event) : (events.foldl (Traffic.after r source) t).Sound r source := by
  induction events generalizing t with
  | nil => exact h
  | cons event rest ih => exact ih (h.after built columns event)

/-- **In every interleaving the registry is transparent and a fallback never sticks.**  Take a source
with one schema for each table, made or read and not without columns, that may fail at any time.
However the steps of requests alternate and whenever entries are lost, a request that is answered a
schema is answered the one of the source, or a fallback if the source failed that very request;
either is cut exactly to the fields that were given.  Every entry of the cache is a whole schema of
the source and reads back as that schema, with its relations and so with the index of these. -/
theorem transparent (r : SchemaRegistry m) (built : ∀ table, (source table).Built)
    (columns : ∀ table, (source table).columns ≠ []) (events : List Event) :
    let traffic := events.foldl (Traffic.after r source) idle
    (∀ q ∈ traffic.inquiries, ∀ answer, q.rest.result? = some answer →
      r.Rightly source q.table q.fields q.heard answer) ∧
    ∀ entry ∈ traffic.cache, ∃ table, entry.1 = SchemaRegistry.cacheKey table ∧
      entry.2.1 = (source table).toJson ∧ Schema.ofJson? entry.2.1 = some (source table) := by
  have sound := sound_idle.run (r := r) built columns events
  refine ⟨fun q member answer finished => ?_, fun entry member => ?_⟩
  · have keeps := sound.inquiries q member
    cases rest : q.rest with
    | done a =>
        rw [rest] at keeps finished
        exact Option.some.inj finished ▸ keeps
    | read | write | ask =>
        rw [rest] at finished
        exact absurd finished (by simp [Steps.result?])
  · obtain ⟨table, key, value⟩ := sound.cached entry member
    exact ⟨table, key, value, value ▸ (built table).ofJson?_toJson⟩

/-- A table of people with a key, a name and an age. -/
def people (table : String) : Schema :=
  .ofColumns table [.serverKey "id", .plain "name" .string, .plain "age" .number] []

/-- A registry with a fallback that has but one column. -/
def degraded : SchemaRegistry Id :=
  let source := (SchemaSet.ofList []).source Id
  (SchemaRegistry.plain source ⟨fun _ => none, fun _ _ _ => ()⟩).withFallback
    (.ofColumns "people" [.plain "name" .string] [])

/-- Two requests find nothing; the source fails one of them and describes the table to the other,
which caches it for a third. -/
def crossing : List Event :=
  [.arrives "people" none, .arrives "people" (some ["name"]), .arrives "people" (some ["age"]),
   .proceeds 0 5 none, .proceeds 1 5 none, .proceeds 1 5 none, .proceeds 0 6 (some (.config "down")),
   .proceeds 1 6 none, .proceeds 2 7 none]

theorem transparent_crossing :
    let traffic := crossing.foldl (Traffic.after degraded people) idle
    (traffic.inquiries.map fun q => q.rest.result? >>= Except.toOption) =
      [some (.ofColumns "people" [.plain "name" .string] []),
       some ((people "people").project ["name"]), some ((people "people").project ["age"])] ∧
    (∀ q ∈ traffic.inquiries, ∀ answer, q.rest.result? = some answer →
      degraded.Rightly people q.table q.fields q.heard answer) ∧
    ∀ entry ∈ traffic.cache, ∃ table, entry.1 = SchemaRegistry.cacheKey table ∧
      entry.2.1 = (people table).toJson ∧ Schema.ofJson? entry.2.1 = some (people table) := by
  refine ⟨by decide +kernel, transparent degraded (fun table => ?_) (fun table => ?_) crossing⟩
  · refine .made table [] fun c member n length => ?_
    simp only [List.mem_cons, List.not_mem_nil, or_false] at member
    rcases member with rfl | rfl | rfl <;>
      exact absurd length (by simp [Column.serverKey, Column.plain])
  · exact List.cons_ne_nil _ _

end Traffic

end DataAccess
