import DataAccess.Proofs.Engine.Checking
/-
**What guarded calls record.**  A guarded call has a plan once its schema is known and its input is
accepted: the checks it makes, the statement that it sends if they pass, and the one that reads the
written row back.  The call records what follows its plan, and nothing if it has none.

Main definitions:

* `GuardedCall`, `GuardedCall.perform` — the guarded writes of the engine;
* `GuardedCall.plan` — the plan of a call.

Main results:

* `GuardedCall.orderly` — the checks of a plan read and its write writes;
* `GuardedCall.records_resume` — a call whose input is accepted follows its plan;
* `GuardedCall.recorded` — **no write is sent before every check has passed**.
-/

set_option autoImplicit false

namespace DataAccess

open DataAccess.Action

/-- A guarded call. -/
inductive GuardedCall
  | create (data : Record)
  | update (id : Json) (data : Record)
  | delete (id : Json)

namespace GuardedCall

variable {ρ : Type}

/-- The call on a table. -/
def perform {m : Type → Type} [Monad m] (e : Engine m) (table : String) :
    GuardedCall → ExceptT DataError m Reply
  | .create data => .record <$> e.createRecord table data
  | .update id data => .record <$> e.updateRecord table id data
  | .delete id => .deleted <$> e.deleteRecord table id

/-- The plan of a call on a table with a certain schema, or why its input is not accepted. -/
def plan (g : Recorder ρ) (s : Schema) (time : Timestamp) : GuardedCall → Outcome WritePlan
  | .create data => do
    let record ← (s.validateRequired data).outcome
    return {
      checks := (s.uniqueCandidates g.config.identityFields record).map (Check.free s [])
      write := .ok (Statement.insert g.dialect.returning s record)
      readBack := g.rereads (g.datasource.readInserted s record) }
  | .update id data => do
    let record ← (s.validateData data).outcome
    let key ← s.primaryKeyField
    return {
      checks := Check.existence s key id ::
        (s.uniqueCandidates g.config.identityFields record).map (Check.free s [⟨key, .notEquals, id⟩])
      write := Statement.update g.dialect.returning s id record
      readBack := g.rereads (Statement.selectByKey g.dialect s (some id)) }
  | .delete id => do
    let key ← s.primaryKeyField
    return {
      checks := [Check.existence s key id]
      write := Statement.removal s id time g.config.softDeleteColumn
      readBack := none }

end GuardedCall

/-! ### Guarded calls -/

namespace GuardedCall

variable {ρ : Type} {g : Recorder ρ} {s : Schema}

open Recorder

/-- The statement of a look-up reads. -/
theorem opens_existence {key : String} {id : Json} {q : Statement}
    (compiled : (Check.existence s key id).statement = .ok q) : q.Opens Statement.readWords := by
  have selected : Statement.select s none [] [⟨key, .equals, id⟩] [] (some ⟨1, 0⟩) = .ok q :=
    compiled
  exact Statement.opens_select selected

/-- The statements that count values read. -/
theorem opens_free (others : List WhereCondition) (candidates : List (Column × Json)) :
    ∀ check ∈ candidates.map (Check.free s others), ∀ q, check.statement = .ok q →
      q.Opens Statement.readWords := by
  intro check member q compiled
  obtain ⟨candidate, -, rfl⟩ := List.mem_map.1 member
  have counted : Statement.count s []
      (⟨candidate.1.field, .equals, candidate.2⟩ :: others) = .ok q := compiled
  exact Statement.opens_count counted

/-- A row is read back by its own statement in one dialect only, and that statement reads. -/
theorem opens_rereads {statement : Outcome Statement}
    (opens : ∀ q, statement = .ok q → q.Opens Statement.readWords) (q : Statement)
    (again : g.rereads statement = some q) :
    g.dialect = .mysql ∧ q.Opens Statement.readWords := by
  rw [Recorder.rereads] at again
  cases dialect : g.dialect with
  | postgres | mssql =>
      rw [dialect] at again
      exact absurd again (by simp [Dialect.returning])
  | mysql =>
      rw [dialect] at again
      cases statement with
      | error e => exact absurd again (by simp [Dialect.returning, Except.toOption])
      | ok q' => exact ⟨rfl, opens q (congrArg Except.ok (Option.some.inj again))⟩

/-- Every plan is orderly. -/
theorem orderly {call : GuardedCall} {time : Timestamp} {p : WritePlan}
    (planned : call.plan g s time = .ok p) : p.Orderly g.dialect := by
  cases call with
  | create data =>
      obtain ⟨record, -, planned⟩ := Outcome.bind_eq_ok.1 planned
      obtain rfl := Except.ok.inj planned
      refine ⟨opens_free _ _, fun q compiled => ?_, opens_rereads fun q read => ?_⟩
      · exact Except.ok.inj compiled ▸ Statement.opens_insert g.dialect.returning s record
      · obtain ⟨key, -, read⟩ := Outcome.bind_eq_ok.1 read
        exact Statement.opens_selectByKey read
  | update id data =>
      obtain ⟨record, -, planned⟩ := Outcome.bind_eq_ok.1 planned
      obtain ⟨key, -, planned⟩ := Outcome.bind_eq_ok.1 planned
      obtain rfl := Except.ok.inj planned
      exact ⟨List.forall_mem_cons.2 ⟨fun q => opens_existence, opens_free _ _⟩,
        fun q compiled => Statement.opens_update compiled,
        opens_rereads fun q read => Statement.opens_selectByKey read⟩
  | delete id =>
      obtain ⟨key, -, planned⟩ := Outcome.bind_eq_ok.1 planned
      obtain rfl := Except.ok.inj planned
      exact ⟨List.forall_mem_singleton.2 fun q => opens_existence,
        fun q compiled => Statement.opens_removal compiled, fun q none => absurd none (by simp)⟩

/-- The rest of a call, when the schema of its table is known. -/
def resume {m : Type → Type} [Monad m] (e : Engine m) (s : Schema) :
    GuardedCall → ExceptT DataError m Reply
  | .create data => do
    let record ← liftExcept (s.validateRequired data).outcome
    e.requireUnique s record none
    .record <$> e.datasource.createOne s record
  | .update id data => do
    let record ← liftExcept (s.validateData data).outcome
    let key ← liftExcept s.primaryKeyField
    e.requireExisting s key id
    e.requireUnique s record (some id)
    .record <$> e.datasource.updateOne s id record
  | .delete id => do
    let key ← liftExcept s.primaryKeyField
    e.requireExisting s key id
    .deleted <$> e.datasource.deleteOne s id e.config.softDeleteColumn

theorem perform_eq {m : Type → Type} [Monad m] [LawfulMonad m] (e : Engine m) (table : String)
    (call : GuardedCall) : call.perform e table = e.schema table >>= fun s => call.resume e s := by
  cases call with
  | create data => simp only [perform, Engine.createRecord, resume, map_bind]
  | update id data => simp only [perform, Engine.updateRecord, resume, map_bind]
  | delete id => simp only [perform, Engine.deleteRecord, resume, map_bind]

/-- **A call whose input is accepted follows its plan.** -/
theorem records_resume (g : Recorder ρ) (s : Schema) (call : GuardedCall) {w : Script × ρ}
    (free : w.1.refusal = none) {p : WritePlan} (planned : call.plan g s (g.clock w.2) = .ok p) :
    Records (call.resume g.engine s) w fun log _ => p.Follows g.dialect log := by
  cases call with
  | create data =>
      obtain ⟨record, accepted, planned⟩ := Outcome.bind_eq_ok.1 planned
      obtain rfl := Except.ok.inj planned
      rw [resume, accepted]
      refine g.records_guarded (g.records_requireUnique (fun _ _ => rfl)
        (fun c member => absurd member List.not_mem_nil) record free) fun v same _ => ?_
      exact (g.records_createOne s record (same.trans free)).map fun _ _ writes => writes
  | update id data =>
      obtain ⟨record, accepted, planned⟩ := Outcome.bind_eq_ok.1 planned
      obtain ⟨key, known, planned⟩ := Outcome.bind_eq_ok.1 planned
      obtain rfl := Except.ok.inj planned
      have counts (field : String) (v : Json) : Statement.countMatching s field v (some id) =
          Statement.count s [] [⟨field, .equals, v⟩, ⟨key, .notEquals, id⟩] := by
        rw [Statement.countMatching, known]
        rfl
      have column : ∀ c ∈ [(⟨key, .notEquals, id⟩ : WhereCondition)],
          s.hasColumn c.column = true :=
        List.forall_mem_singleton.2 (Schema.hasColumn_of_primaryKeyField known)
      have guards := g.records_guards (g.records_requireExisting known id free)
        fun v same => g.records_requireUnique counts column record (same.trans free)
      rw [resume, accepted, known]
      change Records (g.engine.requireExisting s key id >>= fun _ =>
        g.engine.requireUnique s record (some id) >>= fun _ =>
          Reply.record <$> g.datasource.updateOne s id record) w _
      rw [← bind_assoc]
      refine g.records_guarded guards fun v same _ => ?_
      exact (g.records_updateOne s id record (same.trans free)).map fun _ _ writes => writes
  | delete id =>
      obtain ⟨key, known, planned⟩ := Outcome.bind_eq_ok.1 planned
      obtain rfl := Except.ok.inj planned
      rw [resume, known]
      refine g.records_guarded (g.records_requireExisting known id free) fun v same rest => ?_
      have removed := g.records_deleteOne s id g.config.softDeleteColumn (same.trans free)
      rw [rest] at removed
      exact removed.map fun _ _ writes => writes

section Refused

variable (g : Recorder ρ) (s : Schema) {w : Script × ρ} {reason : String}
  (refused : w.1.refusal = some reason)

include refused

theorem settled_existence (key : String) (id : Json) :
    Settled (fun v => v = w) (g.engine.requireExisting s key id) := by
  refine Settled.bind ((settled_liftExcept _).bind fun q => settled_withConnection refused) ?_
  intro found
  cases found with
  | none => exact settled_throw _
  | some row => exact settled_pure ()

theorem settled_free (record : Record) (excluded : Option Json) :
    Settled (fun v => v = w) (g.engine.requireUnique s record excluded) := by
  refine Settled.bind ?_ fun verdict => settled_liftExcept _
  change Settled _ (g.datasource.uniqueCheck s record excluded)
  rw [SqlDatasource.uniqueCheck]
  split
  · exact settled_pure _
  · exact settled_withConnection refused

theorem settled_deleteOne (id : Json) (stamped : Option String) :
    Settled (fun v => v = w) (g.datasource.deleteOne s id stamped) := by
  have sent (q : Outcome Statement) : Settled (fun v => v = w) (do
      let q ← liftExcept q
      Script.paired.withConnection fun c => do
        return min (← g.datasource.runStatement c q).affected 1) :=
    (settled_liftExcept q).bind fun _ => settled_withConnection refused
  cases stamped with
  | none => exact sent _
  | some column =>
      have now : Settled (fun v => v = w) (ExceptT.lift g.datasource.now) := by
        refine ⟨.ok (g.clock w.2), ?_⟩
        rintro v rfl
        exact ⟨v, rfl, rfl⟩
      exact now.bind fun time => sent _

/-- Where connections are refused, a call changes nothing. -/
theorem settled_resume (call : GuardedCall) :
    Settled (fun v => v = w) (call.resume g.engine s) := by
  cases call with
  | create data =>
      refine (settled_liftExcept _).bind fun record => ?_
      refine (settled_free g s refused record none).bind fun _ => ?_
      exact (settled_withConnection refused).map _
  | update id data =>
      refine (settled_liftExcept _).bind fun record => (settled_liftExcept _).bind fun key => ?_
      refine (settled_existence g s refused key id).bind fun _ => ?_
      refine (settled_free g s refused record (some id)).bind fun _ => ?_
      exact ((settled_liftExcept _).bind fun q => settled_withConnection refused).map _
  | delete id =>
      refine (settled_liftExcept _).bind fun key => ?_
      refine (settled_existence g s refused key id).bind fun _ => ?_
      exact (settled_deleteOne g s refused id g.config.softDeleteColumn).map _

end Refused

/-- A call whose input is not accepted changes nothing. -/
theorem runFrom_resume_error (g : Recorder ρ) (s : Schema) (call : GuardedCall) (w : Script × ρ)
    {e : DataError} (refused : call.plan g s (g.clock w.2) = .error e) :
    runFrom (call.resume g.engine s) w = (.error e, w) := by
  cases call with
  | create data =>
      rcases Outcome.bind_eq_error.1 refused with invalid | ⟨record, -, planned⟩
      · rw [resume, invalid]
        rfl
      · exact absurd planned (by simp [pure, Except.pure])
  | update id data =>
      rcases Outcome.bind_eq_error.1 refused with invalid | ⟨record, accepted, refused⟩
      · rw [resume, invalid]
        rfl
      rcases Outcome.bind_eq_error.1 refused with keyless | ⟨key, -, planned⟩
      · rw [resume, accepted, keyless]
        rfl
      · exact absurd planned (by simp [pure, Except.pure])
  | delete id =>
      rcases Outcome.bind_eq_error.1 refused with keyless | ⟨key, -, planned⟩
      · rw [resume, keyless]
        rfl
      · exact absurd planned (by simp [pure, Except.pure])

/-- **No write before every check has passed.** -/
theorem recorded (g : Recorder ρ) (call : GuardedCall) (table : String) (w : Script × ρ) :
    match runFrom (g.engine.schema table) w with
    | (.error e, v) => runFrom (call.perform g.engine table) w = (.error e, v)
    | (.ok s, v) =>
      match call.plan g s (g.clock v.2) with
      | .error e => runFrom (call.perform g.engine table) w = (.error e, v)
      | .ok p =>
        ∃ log, Recorded v log (runFrom (call.perform g.engine table) w).2 ∧
          (if v.1.refusal.isNone then p.Follows g.dialect log else log = []) ∧
          p.WritesOnce g.dialect log := by
  rw [perform_eq, runFrom_bind]
  rcases runFrom (g.engine.schema table) w with ⟨e | s, v⟩
  · rfl
  · dsimp only
    cases planned : call.plan g s (g.clock v.2) with
    | error e => exact runFrom_resume_error g s call v planned
    | ok p =>
        cases refused : v.1.refusal with
        | some reason =>
            obtain ⟨result, run⟩ := (settled_resume g s refused call).runFrom_eq
            rw [run]
            exact ⟨[], Recorded.refl v, rfl,
              WritePlan.writesOnce_reads fun x member => absurd member List.not_mem_nil⟩
        | none =>
            obtain ⟨log, recorded, follows⟩ := records_resume g s call refused planned
            exact ⟨log, recorded, follows, follows.writesOnce (orderly planned)⟩

/-- A table with a generated key and one unique text. -/
def notes (field : String) : Schema :=
  .ofColumns "notes" [.serverKey "id", (Column.plain field .string).asUnique] []

/-- An engine over a scripted backend that is told the schema of one table. -/
def scripted (dialect : Dialect) (s : Schema) : Recorder Unit where
  registry := SchemaRegistry.plain ((SchemaSet.ofList [s]).source _)
    ⟨fun _ => pure none, fun _ _ _ => pure ()⟩
  config := .ofBackend .mysql
  dialect
  clock := fun _ => ⟨0, 0⟩

/-- The texts of the statements that a call records, when the first count finds nothing. -/
def texts (g : Recorder Unit) (call : GuardedCall) : List String :=
  let start : Script := { Script.empty with replies := [.ok (.fetched [[("total", .nat 0)]])] }
  (runFrom (call.perform g.engine "notes") (start, ())).2.1.statements.map CompiledQuery.sql

/-- A unique value is counted, and the row is written and read back. -/
example : texts (scripted .mysql (notes "title")) (.create [("title", .string "first")]) =
    ["SELECT COUNT(*) AS total FROM \x60notes\x60 WHERE \x60notes\x60.\x60title\x60 = ?",
     "INSERT INTO \x60notes\x60 (\x60title\x60) VALUES (?)",
     "SELECT * FROM \x60notes\x60 WHERE \x60notes\x60.\x60id\x60 = LAST_INSERT_ID()"] := by
  decide +kernel

/-- The value of a unique column with a dot in its name is never counted, and the call ends there. -/
theorem recorded_dotted :
    ((notes "a.b").validateRequired [("a.b", .string "first")]).isOk = true ∧
      ((notes "a.b").uniqueCandidates [] [("a.b", .string "first")]).length = 1 ∧
      texts (scripted .postgres (notes "a.b")) (.create [("a.b", .string "first")]) = [] := by
  decide +kernel

end GuardedCall

end DataAccess
