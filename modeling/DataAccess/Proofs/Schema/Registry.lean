import DataAccess.Proofs.Action
import DataAccess.Schema.Registry
/-
**What the registry answers.**  A schema comes from the cache, from the source, or in diagnostic mode
from the fallbacks, in this order.  Over backends that live in memory each of these is a step from one
state to the next.

Main definitions:

* `SchemaRegistry.standIn` — what is answered when the source does not describe a table.

Main results:

* `SchemaRegistry.cacheKey_injective` — tables have cache entries of their own;
* `SchemaRegistry.runFrom_load` — a schema that is not cached;
* `SchemaRegistry.runFrom_getSchema` — the schema of a table.
-/

set_option autoImplicit false

namespace DataAccess.SchemaRegistry

open DataAccess.Action

/-- Two tables never share a cache entry. -/
theorem cacheKey_injective : Function.Injective cacheKey := by
  intro a b same
  have letters : ("schema:" ++ a).toList = ("schema:" ++ b).toList := congrArg String.toList same
  rw [String.toList_append, String.toList_append] at letters
  exact String.toList_inj.1 (List.append_cancel_left letters)

variable {σ : Type} (r : SchemaRegistry (StateM σ))

/-- What is answered for a table that the source does not describe. -/
def standIn (table : String) (e : DataError) : Outcome Schema :=
  match r.fallback? table with
  | some s => .ok s
  | none => .error e

theorem standIn_none {r : SchemaRegistry (StateM σ)} {table : String}
    (none : r.fallback? table = none) (e : DataError) : r.standIn table e = .error e := by
  rw [standIn, none]

/-- A schema that the source describes is cached; otherwise the fallback stands in. -/
theorem runFrom_load (table : String) (w : σ) :
    runFrom (r.load table) w = match runFrom (r.source.introspect table) w with
      | (.ok s, v) =>
        if s.columns.isEmpty then (r.standIn table (.schemaNotFound table), v)
        else (.ok s, (r.cache.set (cacheKey table) s.toJson r.ttl v).2)
      | (.error e, v) => (r.standIn table e, v) := by
  have missing (e : DataError) (v : σ) : runFrom (match r.fallback? table with
      | some s => (return s : Action σ Schema)
      | none => throw e) v = (r.standIn table e, v) := by
    rw [standIn]
    cases r.fallback? table <;> rfl
  obtain ⟨introspected, v, asked⟩ : ∃ introspected v,
      (r.source.introspect table).run w = (introspected, v) := ⟨_, _, rfl⟩
  have answer : runFrom (r.source.introspect table) w = (introspected, v) := asked
  rw [load, runFrom_bind, runFrom_lift, answer]
  simp only [asked]
  cases introspected with
  | error e => exact missing e v
  | ok s =>
      cases empty : s.columns.isEmpty with
      | true =>
          simp only [bind, Except.bind, empty, if_true, throw, throwThe, MonadExceptOf.throw]
          exact missing _ v
      | false =>
          simp only [bind, Except.bind, empty, Bool.false_eq_true, if_false, pure, Except.pure]
          rfl

/-- A cached schema is answered as it is; any other is loaded. -/
theorem runFrom_getSchema {table : String} (named : table ≠ "") (w : σ) :
    runFrom (r.getSchema table none) w = match r.cache.get (cacheKey table) w with
      | (entry, v) =>
        match entry >>= Schema.ofJson? with
        | some s => (.ok s, v)
        | none => runFrom (r.load table) v := by
  obtain ⟨entry, v, read⟩ : ∃ entry v, r.cache.get (cacheKey table) w = (entry, v) :=
    ⟨_, _, rfl⟩
  have cached : r.cached table w = (entry >>= Schema.ofJson?, v) := by
    change (match r.cache.get (cacheKey table) w with
      | (entry, v) => (entry >>= Schema.ofJson?, v)) = _
    rw [read]
  rw [getSchema, if_neg named, runFrom_bind, runFrom_lift, cached, read]
  simp only
  cases decoded : entry >>= Schema.ofJson? with
  | some s =>
      simp only
      rfl
  | none =>
      simp only
      rw [runFrom_bind]
      rcases runFrom (r.load table) v with ⟨_ | _, _⟩ <;> rfl

theorem runFrom_getSchema_nameless (fields : Option (List String)) (w : σ) :
    runFrom (r.getSchema "" fields) w = (.error (.validation "Table name not provided"), w) := by
  rw [getSchema, if_pos rfl, runFrom_bind, runFrom_throw]

end DataAccess.SchemaRegistry
