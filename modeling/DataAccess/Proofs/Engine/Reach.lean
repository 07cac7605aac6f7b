import DataAccess.Proofs.Engine.Robust
/-
**The worlds that an engine gets to.**  Engines perform operations, and other clients write into the same
store.  Whatever they do, the rules of all collections hold, and a schema that was cached at some time
still flags the unique indexes of its collection: a collection that exists is not created again, so its
rules stay.

Main definitions:

* `MemoryStore.Showed` — a schema that documents showed under the unique indexes that there are;
* `Setting.Reachable` — the worlds that come about;
* `Setting.Orderly` — what holds of all of them;
* `Setting.inferredSchema` — the schema that documents of a table show.

Main results:

* `StoreCall.perform_lasting` — a collection that exists stays and keeps its rules;
* `Setting.robust_orderly` — writes and requests for schemas keep a world orderly;
* `Setting.Reachable.orderly` — **every reachable world is orderly**;
* `Setting.served_of_inferredSchema` — the schema that documents show is served;
* `Setting.Orderly.showed` — and flags the unique indexes that the table has.
-/

set_option autoImplicit false

namespace DataAccess

/-! ### Collections that exist -/

theorem MemoryStore.contains_put {s : MemoryStore} {other : String}
    (held : Keyed.contains s other = true) (name : String) (c : Collection) :
    Keyed.contains (s.put name c) other = true := by
  rw [Keyed.contains_iff] at held ⊢
  rw [put, Keyed.keys_insert]
  split
  · exact held
  · exact List.mem_append_left _ held

/-- A collection whose documents are found exists. -/
theorem MemoryStore.contains_of_find {store : MemoryStore} {name : String} {filter : Filter}
    {read : StoreRead} (found : store.find name filter read ≠ []) :
    Keyed.contains store name = true := by
  by_contra missing
  have absent : Keyed.get? store name = none := by
    rwa [Keyed.get?_eq_none_iff, ← Keyed.contains_iff]
  refine found ?_
  cases limit : read.limit <;>
    simp [find, collection, absent, Collection.empty, sorted, limit]

namespace StoreCall

variable (g : Setting) (w : World)

/-- A write puts at most one collection into the store, and it may hand out a key. -/
theorem perform_puts (call : StoreCall) : ∃ store issued,
    ((call.perform g.store).run w).2 = { w with store, issued } ∧
      (store = w.store ∨ ∃ name c, store = w.store.put name c) := by
  cases call with
  | create name rules =>
      refine ⟨(w.store.create name rules).2, w.issued, rfl, ?_⟩
      rw [MemoryStore.create]
      split
      · exact .inl rfl
      · exact .inr ⟨_, _, rfl⟩
  | insert name doc =>
      obtain ⟨stored, u, supplied⟩ : ∃ stored u, supplyKey g.freshKey doc w = (stored, u) :=
        ⟨_, _, rfl⟩
      obtain ⟨-, -, issued, rfl⟩ := supplyKey_effect g supplied
      rw [perform, run_dropped (run_insertOne g name supplied)]
      refine ⟨(w.store.insert name stored).2, issued, rfl, ?_⟩
      simp only [MemoryStore.insert]
      split
      · exact .inr ⟨_, _, rfl⟩
      · exact .inr ⟨_, _, rfl⟩
  | update name filter fields =>
      have updated : (g.store.updateOne name filter fields).run w =
          ((w.store.update name filter fields).1,
            { w with store := (w.store.update name filter fields).2 }) := rfl
      rw [perform, run_dropped updated]
      refine ⟨(w.store.update name filter fields).2, w.issued, rfl, ?_⟩
      simp only [MemoryStore.update]
      split
      · exact .inl rfl
      · split
        · exact .inr ⟨_, _, rfl⟩
        · exact .inl rfl
  | delete name filter =>
      refine ⟨(w.store.delete name filter).2, w.issued, rfl, ?_⟩
      simp only [MemoryStore.delete]
      split
      · exact .inl rfl
      · exact .inr ⟨_, _, rfl⟩

variable {w}

/-- A collection that exists is not created again. -/
theorem perform_create {name other : String} {rules : CollectionRules}
    (held : Keyed.contains w.store name = true) {result : Except NativeError Unit} {v : World}
    (run : ((create other rules).perform g.store).run w = (result, v)) (created : result.isOk = true) :
    name ≠ other := by
  rintro rfl
  have refused : ((create name rules).perform g.store).run w =
      ((w.store.create name rules).1, { w with store := (w.store.create name rules).2 }) := rfl
  rw [refused, MemoryStore.create, held, if_pos rfl] at run
  cases run
  exact absurd created (by simp [Except.isOk, Except.toBool])

/-- A collection that exists stays, with the rules that it has. -/
theorem perform_lasting {call : StoreCall} {name : String}
    (held : Keyed.contains w.store name = true) {result : Except NativeError Unit} {v : World}
    (run : (call.perform g.store).run w = (result, v)) :
    Keyed.contains v.store name = true ∧
      (v.store.collection name).rules = (w.store.collection name).rules := by
  have rules := (effect_perform g run).rules name
  constructor
  · obtain ⟨store, issued, eq, which⟩ := perform_puts g w call
    rw [run] at eq
    obtain rfl : v = { w with store, issued } := eq
    rcases which with rfl | ⟨other, c, rfl⟩
    · exact held
    · exact MemoryStore.contains_put held other c
  · rw [rules]
    cases call with
    | create other rules' =>
        cases result with
        | error e => rfl
        | ok _ => rw [declared, if_neg (perform_create g held run rfl)]
    | insert other doc => rfl
    | update other filter fields => rfl
    | delete other filter => rfl

end StoreCall

/-! ### Reachable worlds -/

/-- A schema was inferred from documents of a collection that exists, under the unique indexes that it
has. -/
def MemoryStore.Showed (store : MemoryStore) (table : String) (s : Schema) : Prop :=
  Keyed.contains store table = true ∧ ∃ declared sample, sample ≠ [] ∧
    s = Schema.inferred table (store.collection table).rules.unique declared sample

theorem MemoryStore.Showed.isInferred {store : MemoryStore} {table : String} {s : Schema}
    (showed : store.Showed table s) : s.IsInferred table := by
  obtain ⟨-, declared, sample, some, rfl⟩ := showed
  exact ⟨_, declared, sample, some, rfl⟩

namespace Setting

open DataAccess.Action

/-- The worlds that come about.  In the beginning nothing is stored and nothing is cached; then the engine
performs operations, whenever it may be, and other clients write into its store.  All records are proper
values, and any of these steps may fail. -/
inductive Reachable (g : Setting) : World → Prop
  | start (issued : Nat) : g.Reachable { store := [], cache := [], issued }
  | perform {w : World} (second : Nat) (now : Timestamp) (op : Operation) (reached : g.Reachable w)
      (proper : op.Proper) : g.Reachable (runFrom ({ g with second, now }.engine.perform op) w).2
  | write {w : World} (call : StoreCall) (reached : g.Reachable w) (proper : call.Proper) :
      g.Reachable ((call.perform g.store).run w).2

/-- What holds of every reachable world: the rules of all collections hold, and whatever is cached for a
table, at any second, was inferred under the unique indexes that its collection has. -/
structure Orderly (g : Setting) (w : World) : Prop where
  sound : ∀ name, (w.store.collection name).Sound
  cached : ∀ second table s, (g.atSecond second).cachedSchema w table = some s →
    w.store.Showed table s

/-- What the documents of a table show now is inferred under the indexes that it has now. -/
theorem Shows.showed {g : Setting} {w : World} {table : String} {s : Schema}
    (shows : g.Shows w table s) : w.store.Showed table s := by
  obtain ⟨rfl, filled⟩ := shows
  have some : w.store.find table (.object []) (.first DocumentDatasource.sampleSize) ≠ [] := by
    intro none
    rw [shownSchema, none] at filled
    exact absurd filled (by simp [Schema.inferred, Schema.ofColumns])
  exact ⟨MemoryStore.contains_of_find some, _, _, some, rfl⟩

/-- Proper writes and requests for schemas keep a world orderly. -/
theorem robust_orderly (g : Setting) : g.Robust g.Orderly where
  write call proper w h := by
    cases run : (call.perform g.store).run w with
    | mk result v =>
        obtain ⟨store, issued, eq, -⟩ := StoreCall.perform_puts g w call
        rw [run] at eq
        obtain rfl : v = { w with store, issued } := eq
        refine ⟨(StoreCall.effect_perform g run).sound proper h.sound, ?_⟩
        intro second table s found
        obtain ⟨held, declared, sample, some, inferred⟩ := h.cached second table s found
        obtain ⟨held, rules⟩ := StoreCall.perform_lasting g held run
        exact ⟨held, declared, sample, some, by rwa [rules]⟩
  schema table w h := by
    obtain ⟨cache, run, kept, -⟩ := g.runFrom_schema w table
    rw [run]
    refine ⟨h.sound, fun second other s found => ?_⟩
    rcases kept second other with alike | ⟨rfl, -, within⟩
    · exact h.cached second other s (alike.symm.trans found)
    · exact (within s found).showed

theorem Reachable.orderly {g : Setting} {w : World} (reachable : g.Reachable w) : g.Orderly w := by
  induction reachable with
  | start issued =>
      refine ⟨fun name => Collection.sound_empty, fun second table s found => ?_⟩
      exact absurd found (by simp [cachedSchema, MemoryCache.read])
  | perform second now op _ proper ih =>
      -- neither the second nor the time of stamps matters to what holds
      have kept := (robust_orderly { g with second, now }).keeps_perform proper _
        ⟨ih.sound, ih.cached⟩
      exact ⟨kept.sound, kept.cached⟩
  | write call _ proper ih => exact g.robust_orderly.write call proper _ ih

/-! ### Inferred schemas -/

variable (g : Setting)

/-- The inferred schema that a table is served: the cached one while it lives, or else what the documents
show now, if they show any. -/
def inferredSchema (w : World) (table : String) : Option Schema :=
  (g.cachedSchema w table).or
    (if (g.shownSchema w table).columns.isEmpty then none else some (g.shownSchema w table))

variable {g} {w : World} {table : String} {s : Schema}

theorem cached_or_shows (inferred : g.inferredSchema w table = some s) :
    g.cachedSchema w table = some s ∨ g.cachedSchema w table = none ∧ g.Shows w table s := by
  rw [inferredSchema] at inferred
  cases cached : g.cachedSchema w table with
  | some other =>
      rw [cached, Option.some_or] at inferred
      exact .inl inferred
  | none =>
      rw [cached, Option.none_or] at inferred
      split at inferred
      · exact absurd inferred (by simp)
      · next filled =>
        obtain rfl := Option.some.inj inferred
        exact .inr ⟨rfl, rfl, Bool.eq_false_iff.2 filled⟩

/-- A table whose documents show a schema is served this one. -/
theorem served_of_inferredSchema (named : table ≠ "")
    (inferred : g.inferredSchema w table = some s) : g.served w table = .ok s := by
  rcases cached_or_shows inferred with cached | ⟨uncached, shows⟩
  · exact served_of_cached named cached
  · rw [served_eq named, uncached]
    exact shows.described

/-- In an orderly world every schema that documents show was inferred under the unique indexes that the
table has. -/
theorem Orderly.showed (orderly : g.Orderly w) (inferred : g.inferredSchema w table = some s) :
    w.store.Showed table s := by
  rcases cached_or_shows inferred with cached | ⟨-, shows⟩
  · exact orderly.cached g.second table s cached
  · exact shows.showed

end Setting

end DataAccess
