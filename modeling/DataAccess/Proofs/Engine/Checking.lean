import DataAccess.Engine.Basic
import DataAccess.Proofs.Query.Compiling
import DataAccess.Proofs.Sql.Recording
/-
**Checks and then a write.**  A guarded write makes its checks one after another, and only when all of
them have passed it sends the one statement that writes.  Over a scripted backend the trace shows the
checks up to the first that does not pass, and nothing of the write unless all of them did.

Main definitions:

* `Check`, `Checks` — a read with a test of its rows, and the traces of checks one after another;
* `Writes` — the traces of a write and of reading its row back;
* `WritePlan`, `WritePlan.Follows` — checks and a write, and the traces that follow them;
* `Recorder` — an engine over a scripted relational backend.

Main results:

* `Recorder.records_requireExisting`, `Recorder.records_requireUnique` — what the guards record;
* `Recorder.records_createOne`, `Recorder.records_updateOne`, `Recorder.records_deleteOne` — what the
  writes record;
* `Recorder.records_guarded` — **a write after its guards follows the plan of both**;
* `WritePlan.Follows.writesOnce` — what follows a plan writes once.
-/

set_option autoImplicit false

namespace DataAccess

open DataAccess.Action

/-! ### Plans of writes -/

/-- A check that comes before a write: a read, and what its rows must be for the call to go on. -/
structure Check where
  conditions : List WhereCondition
  /-- The read with these conditions. -/
  statement : Outcome Statement
  passes : List Record → Bool

namespace Check

/-- There is a record with a key, and it can be shaped. -/
def existence (s : Schema) (key : String) (id : Json) : Check where
  conditions := [⟨key, .equals, id⟩]
  statement := Statement.select s none [] [⟨key, .equals, id⟩] [] (some ⟨1, 0⟩)
  passes
    | [] => false
    | row :: _ => (s.shapeRow [] row).isOk

/-- A value of a unique column is free among the records with certain other conditions. -/
def free (s : Schema) (others : List WhereCondition) (candidate : Column × Json) : Check where
  conditions := ⟨candidate.1.field, .equals, candidate.2⟩ :: others
  statement := Statement.count s [] (⟨candidate.1.field, .equals, candidate.2⟩ :: others)
  passes rows := readTotal rows = 0

end Check

/-- Checks are made one after another up to the first that does not pass.  The flag tells whether all
of them passed. -/
inductive Checks (d : Dialect) : List Check → List Exchange → Bool → Prop
  | done : Checks d [] [] true
  | passed {check : Check} {rest : List Check} {q : Statement} {output : QueryOutput}
      {log : List Exchange} {all : Bool} (compiled : check.statement = .ok q)
      (passes : check.passes output.rows = true) (later : Checks d rest log all) :
      Checks d (check :: rest) (⟨q.compile d, .ok output⟩ :: log) all
  | refused {check : Check} {rest : List Check} {q : Statement} {output : QueryOutput}
      (compiled : check.statement = .ok q) (fails : check.passes output.rows = false) :
      Checks d (check :: rest) [⟨q.compile d, .ok output⟩] false
  | failed {check : Check} {rest : List Check} {q : Statement} {e : NativeError}
      (compiled : check.statement = .ok q) : Checks d (check :: rest) [⟨q.compile d, .error e⟩] false
  /-- A dotted column addresses a joined table, and nothing is joined. -/
  | unaddressed {check : Check} {rest : List Check} {e : DataError}
      (deep : ∃ c ∈ check.conditions, c.isDeep = true) (error : check.statement = .error e) :
      Checks d (check :: rest) [] false

/-- A write is one statement, and unless it fails another one may read the written row back. -/
inductive Writes (d : Dialect) (write : Outcome Statement) (readBack : Option Statement) :
    List Exchange → Prop
  | invalid {e : DataError} (error : write = .error e) : Writes d write readBack []
  | failed {q : Statement} {e : NativeError} (compiled : write = .ok q) :
      Writes d write readBack [⟨q.compile d, .error e⟩]
  | written {q : Statement} {output : QueryOutput} (compiled : write = .ok q)
      (complete : readBack = none) : Writes d write readBack [⟨q.compile d, .ok output⟩]
  | reread {q r : Statement} {output : QueryOutput} {reply : Except NativeError QueryOutput}
      (compiled : write = .ok q) (again : readBack = some r) :
      Writes d write readBack [⟨q.compile d, .ok output⟩, ⟨r.compile d, reply⟩]

/-- What a guarded call does once its input is accepted: its checks, its write, and how the written
row is read back if the write itself does not return it. -/
structure WritePlan where
  checks : List Check
  write : Outcome Statement
  readBack : Option Statement

/-- The write comes only after every check has passed. -/
inductive WritePlan.Follows (p : WritePlan) (d : Dialect) : List Exchange → Prop
  | stopped {log : List Exchange} (checks : Checks d p.checks log false) : Follows p d log
  | written {log more : List Exchange} (checks : Checks d p.checks log true)
      (writes : Writes d p.write p.readBack more) : Follows p d (log ++ more)

/-- An engine over a scripted relational backend; `ρ` is whatever else its registry keeps. -/
structure Recorder (ρ : Type) where
  registry : SchemaRegistry (StateM (Script × ρ))
  config : Config
  dialect : Dialect
  clock : ρ → Timestamp

namespace Recorder

variable {ρ : Type} (g : Recorder ρ)

/-- The datasource of the configuration. -/
def datasource : SqlDatasource (StateM (Script × ρ)) where
  backend := g.config.backend
  dialect := g.dialect
  connector := Script.paired
  defaultLimit := g.config.defaultLimit
  identityFields := g.config.identityFields
  now := fun w => (g.clock w.2, w)

def engine : Engine (StateM (Script × ρ)) := ⟨g.registry, g.datasource.datasource, g.config⟩

/-- How a written row is read back, where the write does not return it. -/
def rereads (statement : Outcome Statement) : Option Statement :=
  match g.dialect.returning with
  | .clause | .output => none
  | .reselect => statement.toOption

end Recorder

/-! ### Checks that compile -/

theorem Schema.hasColumn_of_mem {s : Schema} {c : Column} (member : c ∈ s.columns) :
    s.hasColumn c.field = true :=
  hasColumn_iff.2 (List.mem_map_of_mem member)

theorem Schema.hasColumn_of_primaryKeyField {s : Schema} {key : String}
    (known : s.primaryKeyField = .ok key) : s.hasColumn key = true := by
  rw [primaryKeyField, flaggedKey?] at known
  cases flagged : s.columns.find? fun c => c.primaryKey with
  | none =>
      rw [flagged] at known
      exact absurd known (by simp)
  | some c =>
      rw [flagged] at known
      exact Except.ok.inj known ▸ hasColumn_of_mem (List.mem_of_find?_eq_some flagged)

/-- Without joins, a condition on a column of the table fails to name it only if it is dotted. -/
theorem WhereCondition.isDeep_of_not_namesColumn {s : Schema} {c : WhereCondition}
    (known : s.hasColumn c.column = true) (unnamed : ¬ c.namesColumn s [] = true) :
    c.isDeep = true := by
  rw [namesColumn] at unnamed
  cases cut : c.path? with
  | none =>
      rw [cut] at unnamed
      exact absurd known unnamed
  | some pieces => exact isDeep_iff.2 ⟨pieces.1, pieces.2, cut⟩

namespace Check

/-- A check whose statement is refused has a dotted condition. -/
structure Addressed (check : Check) (s : Schema) : Prop where
  known : ∀ c ∈ check.conditions, s.hasColumn c.column = true
  compiles : (∀ c ∈ check.conditions, c.namesColumn s [] = true) → ∃ q, check.statement = .ok q

theorem Addressed.deep {check : Check} {s : Schema} (h : check.Addressed s) {e : DataError}
    (error : check.statement = .error e) : ∃ c ∈ check.conditions, c.isDeep = true := by
  by_contra flat
  have named : ∀ c ∈ check.conditions, c.namesColumn s [] = true := by
    intro c member
    by_contra unnamed
    exact flat ⟨c, member, c.isDeep_of_not_namesColumn (h.known c member) unnamed⟩
  obtain ⟨q, compiled⟩ := h.compiles named
  rw [compiled] at error
  exact absurd error (by simp)

variable {s : Schema} {key : String}

theorem addressed_existence (known : s.primaryKeyField = .ok key) (id : Json) :
    (existence s key id).Addressed s where
  known c member := by
    rw [List.mem_singleton.1 member]
    exact Schema.hasColumn_of_primaryKeyField known
  compiles named := by
    change ∃ q, Statement.select s none [] [⟨key, .equals, id⟩] [] (some ⟨1, 0⟩) = .ok q
    exact Statement.select_iff.2 named

theorem addressed_free {others : List WhereCondition} {candidate : Column × Json}
    (column : candidate.1 ∈ s.columns) (known : ∀ c ∈ others, s.hasColumn c.column = true) :
    (free s others candidate).Addressed s where
  known c member := by
    rcases List.mem_cons.1 member with rfl | other
    · exact Schema.hasColumn_of_mem column
    · exact known c other
  compiles named := by
    change ∃ q, Statement.count s [] (⟨candidate.1.field, .equals, candidate.2⟩ :: others) = .ok q
    exact Statement.count_iff.2 named

end Check

namespace Checks

variable {d : Dialect} {first second : List Check} {log more : List Exchange} {all : Bool}

/-- Further checks are made only after all the first ones have passed. -/
theorem append (h : Checks d first log true) (later : Checks d second more all) :
    Checks d (first ++ second) (log ++ more) all := by
  generalize passed : true = flag at h
  induction h with
  | done => exact later
  | passed compiled passes _ ih => exact .passed compiled passes (ih passed)
  | refused | failed | unaddressed => exact absurd passed (by simp)

theorem stop (h : Checks d first log false) : Checks d (first ++ second) log false := by
  generalize stopped : false = flag at h
  induction h with
  | done => exact absurd stopped (by simp)
  | passed compiled passes _ ih => exact .passed compiled passes (ih stopped)
  | refused compiled fails => exact .refused compiled fails
  | failed compiled => exact .failed compiled
  | unaddressed deep error => exact .unaddressed deep error

theorem length_le (h : Checks d first log all) : log.length ≤ first.length := by
  induction h with
  | done => exact Nat.le_refl 0
  | passed _ _ _ ih => exact Nat.succ_le_succ ih
  | refused | failed => exact Nat.succ_le_succ (Nat.zero_le _)
  | unaddressed => exact Nat.zero_le _

/-- Checks that all pass are one statement each. -/
theorem length_eq (h : Checks d first log true) : log.length = first.length := by
  generalize passed : true = flag at h
  induction h with
  | done => rfl
  | passed _ _ _ ih => exact congrArg Nat.succ (ih passed)
  | refused | failed | unaddressed => exact absurd passed (by simp)

end Checks

namespace Recorder

variable {ρ : Type} (g : Recorder ρ) {s : Schema} {key : String} {w : Script × ρ}

/-! ### What the guards record -/

/-- Looking for a key records the check that it exists. -/
theorem records_requireExisting (known : s.primaryKeyField = .ok key) (id : Json)
    (free : w.1.refusal = none) :
    Records (g.engine.requireExisting s key id) w fun log result =>
      Checks g.dialect [.existence s key id] log result.isOk := by
  have looked : Records (g.datasource.findOne s (.byKey key id)) w fun log result =>
      Checks g.dialect [.existence s key id] log (result.toOption.join.isSome) := by
    rw [SqlDatasource.findOne]
    change Records (liftExcept (Check.existence s key id).statement >>= _) w _
    cases compiled : (Check.existence s key id).statement with
    | error e =>
        have deep := (Check.addressed_existence known id).deep compiled
        exact .of_runFrom rfl (.unaddressed deep compiled)
    | ok q =>
        change Records (Script.paired.withConnection _) w _
        refine Records.withConnection free fun v => ?_
        refine g.datasource.records_runStatement_bind (fun output u => ?_) fun e => .failed compiled
        cases rows : output.rows with
        | nil => exact .pure (.refused compiled (by rw [rows]; rfl))
        | cons row more =>
            have flat : (RecordQuery.byKey key id).relations = [] := rfl
            have shaping : (Check.existence s key id).passes output.rows =
                (s.shapeRow [] row).isOk := by
              rw [rows]
              rfl
            have run : runFrom (do return some (← liftExcept (s.shapeRow [] row)) :
                Action (Script × ρ) (Option Record)) u = (some <$> s.shapeRow [] row, u) := by
              rw [runFrom_bind, runFrom_liftExcept]
              cases s.shapeRow [] row <;> rfl
            rw [flat]
            refine .of_runFrom run ?_
            cases shaped : s.shapeRow [] row with
            | error e => exact .refused compiled (shaping.trans (congrArg Except.isOk shaped))
            | ok r => exact .passed compiled (shaping.trans (congrArg Except.isOk shaped)) .done
  refine looked.bind (fun log found v _ checks => ?_) fun log e checks => checks
  cases found with
  | none => exact .of_runFrom rfl ((List.append_nil log).symm ▸ checks)
  | some row => exact .of_runFrom rfl ((List.append_nil log).symm ▸ checks)

/-- Looking for the values of some candidates records the checks that they are free. -/
theorem records_checkCandidates {excluded : Option Json} {others : List WhereCondition}
    (counts : ∀ field v, Statement.countMatching s field v excluded =
      Statement.count s [] (⟨field, .equals, v⟩ :: others))
    (known : ∀ c ∈ others, s.hasColumn c.column = true) {candidates : List (Column × Json)}
    (columns : ∀ candidate ∈ candidates, candidate.1 ∈ s.columns) (v : Script × ρ) :
    Records (g.datasource.checkCandidates Script.connection s excluded candidates) v
      fun log result =>
        Checks g.dialect (candidates.map (Check.free s others)) log (result.toOption = some .valid) := by
  induction candidates generalizing v with
  | nil => exact .pure (by simpa using .done)
  | cons candidate rest ih =>
      obtain ⟨column, value⟩ := candidate
      obtain ⟨here, there⟩ := List.forall_mem_cons.1 columns
      rw [SqlDatasource.checkCandidates, counts, List.map_cons]
      change Records (liftExcept (Check.free s others (column, value)).statement >>= _) v _
      cases compiled : (Check.free s others (column, value)).statement with
      | error e =>
          have deep := (Check.addressed_free here known).deep compiled
          exact .of_runFrom rfl (by simpa using .unaddressed deep compiled)
      | ok q =>
          change Records (g.datasource.runCount Script.connection q >>= _) v _
          rw [SqlDatasource.runCount, bind_assoc]
          refine g.datasource.records_runStatement_bind (fun output u => ?_)
            fun e => by simpa using .failed compiled
          rw [pure_bind]
          by_cases taken : 0 < readTotal output.rows
          · rw [if_pos taken]
            refine .of_runFrom rfl ?_
            simpa using .refused compiled (by simp [Check.free, Nat.ne_of_gt taken])
          · rw [if_neg taken]
            refine (ih there u).mono fun log result checks => ?_
            exact .passed compiled (by simpa [Check.free] using taken) checks

/-- Looking for the unique values of a record records the checks that they are free. -/
theorem records_requireUnique {excluded : Option Json} {others : List WhereCondition}
    (counts : ∀ field v, Statement.countMatching s field v excluded =
      Statement.count s [] (⟨field, .equals, v⟩ :: others))
    (known : ∀ c ∈ others, s.hasColumn c.column = true) (record : Record)
    (free : w.1.refusal = none) :
    Records (g.engine.requireUnique s record excluded) w fun log result =>
      Checks g.dialect ((s.uniqueCandidates g.config.identityFields record).map (.free s others))
        log result.isOk := by
  have checked : Records (g.datasource.uniqueCheck s record excluded) w fun log result =>
      Checks g.dialect ((s.uniqueCandidates g.config.identityFields record).map (.free s others))
        log (result.toOption = some .valid) := by
    have columns : ∀ candidate ∈ s.uniqueCandidates g.config.identityFields record,
        candidate.1 ∈ s.columns := fun candidate member => (Schema.uniqueCandidates_mem member).1
    have identity : g.datasource.identityFields = g.config.identityFields := rfl
    rw [SqlDatasource.uniqueCheck, identity]
    cases candidates : s.uniqueCandidates g.config.identityFields record with
    | nil => exact .pure (by simpa using .done)
    | cons first rest =>
        rw [candidates] at columns
        exact Records.withConnection free (g.records_checkCandidates counts known columns)
  refine checked.bind (fun log verdict v _ checks => ?_) fun log e checks => checks
  cases verdict with
  | valid => exact .of_runFrom rfl ((List.append_nil log).symm ▸ checks)
  | duplicate field => exact .of_runFrom rfl ((List.append_nil log).symm ▸ checks)

/-! ### What the writes record -/

/-- A write and what reads its row back. -/
theorem records_written {q : Statement} {readBack : Outcome Statement}
    {finish : List Record → Action (Script × ρ) Record}
    (quiet : ∀ rows v, ∃ result, runFrom (finish rows) v = (result, v)) :
    Records (do
        let output ← g.datasource.runStatement Script.connection q
        finish (← g.datasource.writtenRows Script.connection output readBack)) w
      fun log _ => Writes g.dialect (.ok q) (g.rereads readBack) log := by
  refine g.datasource.records_runStatement_bind (fun output v => ?_) fun e => .failed rfl
  have once (complete : g.rereads readBack = none) (rows : List Record) :
      Records (pure rows >>= finish) v fun more _ =>
        Writes g.dialect (.ok q) (g.rereads readBack)
          (⟨q.compile g.dialect, .ok output⟩ :: more) := by
    obtain ⟨result, run⟩ := quiet rows v
    rw [pure_bind]
    exact .of_runFrom run (.written rfl complete)
  have style : g.datasource.dialect.returning = g.dialect.returning := rfl
  rw [SqlDatasource.writtenRows, style]
  cases returning : g.dialect.returning with
  | clause => exact once (by rw [rereads, returning]) output.rows
  | output => exact once (by rw [rereads, returning]) output.rows
  | reselect =>
      cases readBack with
      | error e =>
          refine .of_runFrom rfl (.written rfl ?_)
          rw [rereads, returning]
          rfl
      | ok r =>
          have again : g.rereads (.ok r) = some r := by
            rw [rereads, returning]
            rfl
          change Records ((g.datasource.runStatement Script.connection r >>= fun output =>
            pure output.rows) >>= finish) v _
          rw [bind_assoc]
          refine g.datasource.records_runStatement_bind (fun rows u => ?_)
            fun e => .reread rfl again
          obtain ⟨result, run⟩ := quiet rows.rows u
          rw [pure_bind]
          exact .of_runFrom run (.reread rfl again)

/-- Storing a record records its write. -/
theorem records_createOne (s : Schema) (record : Record) (free : w.1.refusal = none) :
    Records (g.datasource.createOne s record) w fun log _ =>
      Writes g.dialect (.ok (Statement.insert g.dialect.returning s record))
        (g.rereads (g.datasource.readInserted s record)) log := by
  refine Records.withConnection free fun v => g.records_written fun rows u => ?_
  cases rows with
  | nil => exact ⟨_, rfl⟩
  | cons row more => exact ⟨_, runFrom_liftExcept _ u⟩

/-- Changing a record records its write. -/
theorem records_updateOne (s : Schema) (id : Json) (record : Record) (free : w.1.refusal = none) :
    Records (g.datasource.updateOne s id record) w fun log _ =>
      Writes g.dialect (Statement.update g.dialect.returning s id record)
        (g.rereads (Statement.selectByKey g.dialect s (some id))) log := by
  rw [SqlDatasource.updateOne]
  change Records (liftExcept (Statement.update g.dialect.returning s id record) >>= _) w _
  cases Statement.update g.dialect.returning s id record with
  | error e => exact .of_runFrom rfl (.invalid rfl)
  | ok q =>
      refine Records.withConnection free fun v => g.records_written fun rows u => ?_
      cases rows with
      | nil => exact ⟨_, rfl⟩
      | cons row more => exact ⟨_, runFrom_liftExcept _ u⟩

/-- Removing a record records its write. -/
theorem records_deleteOne (s : Schema) (id : Json) (stamped : Option String) (free : w.1.refusal = none) :
    Records (g.datasource.deleteOne s id stamped) w fun log _ =>
      Writes g.dialect (Statement.removal s id (g.clock w.2) stamped) none log := by
  have sent (q : Statement) : Records (g.datasource.connector.withConnection fun c => do
      return min (← g.datasource.runStatement c q).affected 1) w
      fun log _ => Writes g.dialect (.ok q) none log := by
    refine Records.withConnection free fun v => ?_
    exact g.datasource.records_runStatement_bind (fun output u => .pure (.written rfl rfl))
      fun e => .failed rfl
  cases stamped with
  | none =>
      change Records (liftExcept (Statement.delete s id) >>= _) w
        fun log _ => Writes g.dialect (Statement.delete s id) none log
      cases Statement.delete s id with
      | error e => exact .of_runFrom rfl (.invalid rfl)
      | ok q => exact sent q
  | some column =>
      change Records (liftExcept (Statement.softDelete s id column (g.clock w.2).native) >>= _) w
        fun log _ => Writes g.dialect
          (Statement.softDelete s id column (g.clock w.2).native) none log
      cases Statement.softDelete s id column (g.clock w.2).native with
      | error e => exact .of_runFrom rfl (.invalid rfl)
      | ok q => exact sent q

/-! ### Guards and writes together -/

/-- A write after its guards follows the plan of both. -/
theorem records_guarded {α : Type} {guard : Action (Script × ρ) Unit}
    {act : Action (Script × ρ) α} {p : WritePlan}
    (guarded : Records guard w fun log result => Checks g.dialect p.checks log result.isOk)
    (acts : ∀ v, v.1.refusal = w.1.refusal → v.2 = w.2 →
      Records act v fun log _ => Writes g.dialect p.write p.readBack log) :
    Records (guard >>= fun _ => act) w fun log _ => p.Follows g.dialect log := by
  refine guarded.bind (fun log _ v recorded checks => ?_) fun log e checks => .stopped checks
  exact (acts v recorded.refusal recorded.rest).mono fun more _ writes => .written checks writes

/-- Guards one after another make their checks one after another. -/
theorem records_guards {first second : Action (Script × ρ) Unit} {before after : List Check}
    (one : Records first w fun log result => Checks g.dialect before log result.isOk)
    (two : ∀ v, v.1.refusal = w.1.refusal →
      Records second v fun log result => Checks g.dialect after log result.isOk) :
    Records (first >>= fun _ => second) w
      fun log result => Checks g.dialect (before ++ after) log result.isOk := by
  refine one.bind (fun log _ v recorded checks => ?_) fun log e checks => checks.stop
  exact (two v recorded.refusal).mono fun more _ later => checks.append later

end Recorder

/-! ### One write -/

/-- The checks of a plan read, its write writes, and only one dialect reads the row back. -/
structure WritePlan.Orderly (p : WritePlan) (d : Dialect) : Prop where
  checks : ∀ check ∈ p.checks, ∀ q, check.statement = .ok q → q.Opens Statement.readWords
  write : ∀ q, p.write = .ok q → q.Opens Statement.writeWords
  readBack : ∀ q, p.readBack = some q → d = .mysql ∧ q.Opens Statement.readWords

/-- A trace with at most one write, which only the statement that reads the row back may follow, and
that only in one dialect. -/
structure WritePlan.WritesOnce (p : WritePlan) (d : Dialect) (log : List Exchange) : Prop where
  once : (log.filter fun x => x.query.isWrite).length ≤ 1
  last : ∀ before x after, log = before ++ x :: after → x.query.isWrite = true →
    after = [] ∨ d = .mysql ∧ ∃ r reply, p.readBack = some r ∧ after = [⟨r.compile d, reply⟩]

theorem Checks.reads {d : Dialect} {checks : List Check} {log : List Exchange} {all : Bool}
    (h : Checks d checks log all)
    (read : ∀ check ∈ checks, ∀ q, check.statement = .ok q → q.Opens Statement.readWords) :
    ∀ x ∈ log, x.query.isWrite = false := by
  induction h with
  | done => exact fun x member => absurd member List.not_mem_nil
  | passed compiled passes _ ih =>
      obtain ⟨here, there⟩ := List.forall_mem_cons.1 read
      exact List.forall_mem_cons.2 ⟨(here _ compiled).isWrite_read d, ih there⟩
  | refused compiled fails =>
      exact List.forall_mem_singleton.2 ((read _ List.mem_cons_self _ compiled).isWrite_read d)
  | failed compiled =>
      exact List.forall_mem_singleton.2 ((read _ List.mem_cons_self _ compiled).isWrite_read d)
  | unaddressed => exact fun x member => absurd member List.not_mem_nil

namespace WritePlan

variable {p : WritePlan} {d : Dialect} {log more : List Exchange}

/-- Reads may come before. -/
theorem WritesOnce.after_reads (h : p.WritesOnce d more)
    (reads : ∀ x ∈ log, x.query.isWrite = false) : p.WritesOnce d (log ++ more) where
  once := by
    have none : (log.filter fun x => x.query.isWrite) = [] :=
      List.filter_eq_nil_iff.2 fun x member => by rw [reads x member]; exact Bool.false_ne_true
    rw [List.filter_append, none]
    exact h.once
  last before x after split write := by
    -- the write is none of the reads, so it is found in the rest
    obtain ⟨early, rest⟩ : ∃ early, more = early ++ x :: after := by
      rcases List.append_eq_append_iff.1 split with ⟨early, -, rest⟩ | ⟨late, read, rest⟩
      · exact ⟨early, rest⟩
      · cases late with
        | nil => exact ⟨[], rest.symm⟩
        | cons y others =>
            obtain ⟨rfl, -⟩ := List.cons.inj rest
            have member : x ∈ log := by rw [read]; simp
            exact absurd write (by rw [reads x member]; exact Bool.false_ne_true)
    exact h.last early x after rest write

theorem writesOnce_reads (reads : ∀ x ∈ log, x.query.isWrite = false) : p.WritesOnce d log := by
  have nothing : p.WritesOnce d [] := ⟨by simp, fun before x after split => by simp at split⟩
  simpa using nothing.after_reads reads

/-- The write of a plan is one write. -/
theorem Orderly.writesOnce (orderly : p.Orderly d) (h : Writes d p.write p.readBack log) :
    p.WritesOnce d log := by
  have alone (x : Exchange) : p.WritesOnce d [x] := by
    refine ⟨List.length_filter_le _ [x], fun before y after split _ => .inl ?_⟩
    cases before with
    | nil => exact (List.cons.inj split).2.symm
    | cons z rest => simp at split
  cases h with
  | invalid => exact writesOnce_reads fun x member => absurd member List.not_mem_nil
  | failed => exact alone _
  | written => exact alone _
  | @reread q r output reply compiled again =>
      obtain ⟨mysql, read⟩ := orderly.readBack r again
      have write := (orderly.write q compiled).isWrite_write d
      have reads := read.isWrite_read d
      refine ⟨by simp [write, reads], fun before x after split is => ?_⟩
      cases before with
      | nil => exact .inr ⟨mysql, r, reply, again, (List.cons.inj split).2.symm⟩
      | cons y rest =>
          -- what follows the write is a read, so it is not the write that is looked for
          have member : x ∈ [⟨r.compile d, reply⟩] := by
            rw [(List.cons.inj split).2]
            simp
          rw [List.mem_singleton.1 member, reads] at is
          exact absurd is Bool.false_ne_true

/-- **What follows an orderly plan writes once, and last but for the reading back.** -/
theorem Follows.writesOnce (h : p.Follows d log) (orderly : p.Orderly d) : p.WritesOnce d log := by
  cases h with
  | stopped checks => exact writesOnce_reads (checks.reads orderly.checks)
  | written checks writes => exact (orderly.writesOnce writes).after_reads (checks.reads orderly.checks)

end WritePlan

end DataAccess
