import DataAccess.Json.Basic
/-
**The cache of schemas.**  Schemas are kept serialised, so that any store of values can hold them,
and each entry lives for a number of seconds.  The cache in memory drops an expired entry when it is
read.

Main definitions:

* `Cache` — reading and writing entries, with effects in a monad;
* `MemoryCache` — entries with the second at which they expire;
* `MemoryCache.read`, `MemoryCache.write` — the two operations at a given time.

Main results:

* `MemoryCache.read_write_live` — an entry is read back until it expires;
* `MemoryCache.read_write_expired` — from then on it is gone.
-/

set_option autoImplicit false

namespace DataAccess

/-- A store of values with a limited life, with effects in `m`. -/
structure Cache (m : Type → Type) where
  /-- The live entry under a key. -/
  get : String → m (Option Json)
  /-- Stores an entry for a number of seconds. -/
  set : String → Json → Nat → m Unit

/-- Entries with the second at which they expire. -/
abbrev MemoryCache := Keyed (Json × Nat)

namespace MemoryCache

/-- Stores an entry for `ttl` seconds. -/
def write (cache : MemoryCache) (now : Nat) (key : String) (value : Json) (ttl : Nat) :
    MemoryCache :=
  Keyed.insert cache key (value, now + ttl)

/-- The live entry under a key; an expired one is dropped. -/
def read (cache : MemoryCache) (now : Nat) (key : String) : Option Json × MemoryCache :=
  match Keyed.get? cache key with
  | none => (none, cache)
  | some (value, expires) =>
    if now < expires then (some value, cache) else (none, Keyed.erase cache key)

theorem read_write_live {now later ttl : Nat} (h : later < now + ttl) (cache : MemoryCache)
    (key : String) (value : Json) :
    (read (write cache now key value ttl) later key).1 = some value := by
  simp [read, write, h]

theorem read_write_expired {now later ttl : Nat} (h : now + ttl ≤ later) (cache : MemoryCache)
    (key : String) (value : Json) :
    (read (write cache now key value ttl) later key).1 = none := by
  simp [read, write, Nat.not_lt.2 h]

/-- The cache as a part of a larger state, at a fixed time. -/
def inState {σ : Type} (now : Nat) (part : σ → MemoryCache) (update : MemoryCache → σ → σ) :
    Cache (StateM σ) where
  get key := fun s =>
    let (value, cache) := read (part s) now key
    (value, update cache s)
  set key value ttl := fun s => ((), update (write (part s) now key value ttl) s)

end MemoryCache

end DataAccess
