import DataAccess.Proofs.Datasource.GeneratedKey
import DataAccess.Proofs.Engine.Guarded
import DataAccess.Proofs.Engine.Interposing
import DataAccess.Proofs.Engine.Uniqueness
/-
**A record that brings a generated key.**  A record may be stored together with a key that the server
generates.  The key is not stored, over documents as well as over relational backends.  But the check of
unique fields looks for it, if the key column is unique or identifies records: so a key that some record
has already makes the call fail, though it would never be written.

Main definitions:

* `MemoryStore.taken` — some document holds a value.

Main results:

* `Setting.runFrom_createRecord` — when a record is stored among documents;
* `Setting.runFrom_createRecord_insert` — what a given key changes there;
* `GuardedCall.runFrom_resume_insert`, `GuardedCall.interposed_resume` — what it changes over a scripted
  backend;
* `Schema.GeneratesKey.create_given` — **a given key is looked for, and otherwise makes no
  difference**.
-/

set_option autoImplicit false

namespace DataAccess

open DataAccess.Action

/-! ### Among documents -/

/-- Whether some document of a collection holds a value of a column. -/
def MemoryStore.taken (store : MemoryStore) (table : String) (candidate : Column × Json) : Bool :=
  0 < store.count table (Filter.ofCondition candidate.1.field candidate.1.type .equals candidate.2)

namespace Setting

variable (g : Setting) {s : Schema} {table : String}

/-- A check finds out whether one of the values is taken, and changes nothing. -/
theorem runFrom_checkCandidates (s : Schema) (candidates : List (Column × Json)) (w : World) :
    ∃ verdict, runFrom (g.documents.checkCandidates s none candidates) w = (.ok verdict, w) ∧
      verdict.outcome =
        if candidates.any (w.store.taken s.table) then .error .duplicateRecord else .ok () := by
  have same : w.store.counts s.table none = w.store.taken s.table := rfl
  refine ⟨_, g.runFrom_checkCandidates_find w s none candidates, ?_⟩
  rw [same]
  cases found : candidates.find? (w.store.taken s.table) with
  | none =>
      have free := List.find?_eq_none.1 found
      rw [if_neg fun any => ?_]
      · rfl
      · obtain ⟨candidate, member, taken⟩ := List.any_eq_true.1 any
        exact free candidate member taken
  | some first =>
      rw [if_pos (List.any_eq_true.2 ⟨first, List.mem_of_find?_eq_some found, List.find?_some found⟩)]
      rfl

theorem runFrom_requireUnique_any (r : SchemaRegistry (StateM World)) (s : Schema) (record : Record)
    (w : World) : runFrom ({ g.engine with registry := r }.requireUnique s record none) w =
      (if (s.uniqueCandidates g.config.identityFields record).any (w.store.taken s.table) then
        .error .duplicateRecord else .ok (), w) := by
  obtain ⟨verdict, run, outcome⟩ :=
    g.runFrom_checkCandidates s (s.uniqueCandidates g.config.identityFields record) w
  have checked : runFrom (g.engine.datasource.uniqueCheck s record none) w = (.ok verdict, w) := run
  rw [Engine.requireUnique, runFrom_bind, checked, ← outcome]
  exact runFrom_liftExcept verdict.outcome w

/-- A record is stored if it is accepted and none of its unique values is taken. -/
theorem runFrom_createRecord (r : SchemaRegistry (StateM World)) {w v : World} (data : Record)
    (arrives : runFrom (r.getSchema table none) w = (.ok s, v)) :
    runFrom ({ g.engine with registry := r }.createRecord table data) w =
      match (s.validateRequired data).outcome with
      | .error e => (.error e, v)
      | .ok record =>
        if (s.uniqueCandidates g.config.identityFields record).any (v.store.taken s.table) then
          (.error .duplicateRecord, v)
        else runFrom (g.documents.createOne s record) v := by
  rw [Engine.createRecord, runFrom_bind, Engine.schema, arrives]
  dsimp only
  rw [runFrom_bind, runFrom_liftExcept]
  cases (s.validateRequired data).outcome with
  | error e => rfl
  | ok record =>
      dsimp only
      rw [runFrom_bind, g.runFrom_requireUnique_any]
      cases (s.uniqueCandidates g.config.identityFields record).any (v.store.taken s.table) <;> rfl

/-- **Over documents a given key is looked for, and otherwise makes no difference.** -/
theorem runFrom_createRecord_insert (r : SchemaRegistry (StateM World)) {c : Column}
    (generates : s.GeneratesKey c) {data : Record} (k : Json)
    (unkeyed : ∀ d ∈ s.columns, d.isServerGenerated = true → data.get? d.field = none)
    {w v : World} (arrives : runFrom (r.getSchema table none) w = (.ok s, v)) :
    runFrom ({ g.engine with registry := r }.createRecord table (data.insert c.field k)) w =
      if (s.validateRequired data).isOk && c.looksFor g.config.identityFields k &&
          v.store.taken s.table (c, k) then (.error .duplicateRecord, v)
      else runFrom ({ g.engine with registry := r }.createRecord table data) w := by
  have member : c ∈ s.columns := List.mem_of_find?_eq_some generates.column?
  have absent := unkeyed c member generates.generated
  rw [g.runFrom_createRecord r _ arrives, g.runFrom_createRecord r _ arrives,
    generates.outcome_insert absent]
  cases accepted : s.validateRequired data with
  | error issues => rfl
  | ok record =>
      have left (field : String) (gone : data.get? field = none) : record.get? field = none := by
        rw [Keyed.get?_eq_none_iff] at gone ⊢
        rwa [(Schema.validateData_eq_ok (Schema.validateRequired_eq_ok accepted)).1]
      obtain ⟨before, after, without, given⟩ :=
        generates.uniqueCandidates_insert (left _ absent) k g.config.identityFields
      have stored : g.documents.createOne s (record.insert c.field k) =
          g.documents.createOne s record :=
        generates.createOne_insert k (fun d listed flagged => left _ (unkeyed d listed flagged)) _
      change (if (s.uniqueCandidates g.config.identityFields (record.insert c.field k)).any
          (v.store.taken s.table) then (.error .duplicateRecord, v)
        else runFrom (g.documents.createOne s (record.insert c.field k)) v) =
        if (true && c.looksFor g.config.identityFields k) && v.store.taken s.table (c, k) then
          (.error .duplicateRecord, v)
        else if (s.uniqueCandidates g.config.identityFields record).any (v.store.taken s.table) then
          (.error .duplicateRecord, v)
        else runFrom (g.documents.createOne s record) v
      rw [given, without, stored]
      cases looked : c.looksFor g.config.identityFields k <;>
        cases taken : v.store.taken s.table (c, k) <;>
          simp only [taken, List.any_append, List.any_cons, Bool.false_or, Bool.true_or, Bool.or_true,
            Bool.and_true, Bool.and_false, Bool.false_eq_true, if_true, if_false, List.nil_append,
            List.cons_append]

end Setting

/-! ### Over a scripted backend -/

namespace GuardedCall

variable {ρ : Type} (g : Recorder ρ) {s : Schema} {data record : Record} {w : Script × ρ}

/-- The rest of a call that stores a record, when the record is accepted. -/
theorem resume_create (accepted : s.validateRequired data = .ok record) :
    (create data).resume g.engine s = g.engine.requireUnique s record none >>= fun _ =>
      Reply.record <$> g.datasource.createOne s record := by
  rw [resume, accepted]
  exact pure_bind record _

theorem plan_create (accepted : s.validateRequired data = .ok record) (time : Timestamp) :
    (create data).plan g s time = .ok
      { checks := (s.uniqueCandidates g.config.identityFields record).map (Check.free s [])
        write := .ok (Statement.insert g.dialect.returning s record)
        readBack := g.rereads (g.datasource.readInserted s record) } := by
  rw [plan, accepted]
  rfl

/-- Where connections are refused, nothing is stored, whatever is looked for. -/
theorem runFrom_create_refused {reason : String} (refused : w.1.refusal = some reason)
    (looked record : Record) :
    runFrom (g.engine.requireUnique s looked none >>= fun _ =>
      Reply.record <$> g.datasource.createOne s record) w = (.error (.connection reason), w) := by
  have created : runFrom (g.datasource.createOne s record) w = (.error (.connection reason), w) := by
    rw [SqlDatasource.createOne]
    exact runFrom_withConnection_refused refused
  have stored : runFrom (Reply.record <$> g.datasource.createOne s record) w =
      (.error (.connection reason), w) := by
    rw [runFrom_map, created]
    rfl
  have checked : runFrom (g.engine.datasource.uniqueCheck s looked none) w = (.ok .valid, w) ∨
      runFrom (g.engine.datasource.uniqueCheck s looked none) w =
        (.error (.connection reason), w) := by
    change runFrom (g.datasource.uniqueCheck s looked none) w = _ ∨
      runFrom (g.datasource.uniqueCheck s looked none) w = _
    rw [SqlDatasource.uniqueCheck]
    split
    · exact .inl rfl
    · exact .inr (runFrom_withConnection_refused refused)
  rw [runFrom_bind, Engine.requireUnique, runFrom_bind]
  rcases checked with checked | checked
  · rw [checked]
    exact stored
  · rw [checked]

variable {c : Column} (generates : s.GeneratesKey c) (absent : data.get? c.field = none) (k : Json)

include generates absent

theorem validateRequired_given (accepted : s.validateRequired data = .ok record) :
    s.validateRequired (data.insert c.field k) = .ok (record.insert c.field k) := by
  rw [generates.validateRequired_insert absent, accepted]
  rfl

theorem resume_insert (accepted : s.validateRequired data = .ok record) :
    (create (data.insert c.field k)).resume g.engine s =
      g.engine.requireUnique s (record.insert c.field k) none >>= fun _ =>
        Reply.record <$> g.datasource.createOne s record := by
  rw [resume_create g (validateRequired_given generates absent k accepted),
    generates.createOne_insert_sql]

/-- The plan with a given key writes what the plan without it writes. -/
theorem plan_insert (accepted : s.validateRequired data = .ok record) (time : Timestamp) :
    (create (data.insert c.field k)).plan g s time = .ok
      { checks := (s.uniqueCandidates g.config.identityFields (record.insert c.field k)).map
          (Check.free s [])
        write := .ok (Statement.insert g.dialect.returning s record)
        readBack := g.rereads (g.datasource.readInserted s record) } := by
  rw [plan_create g (validateRequired_given generates absent k accepted), generates.statement_insert,
    generates.readInserted_insert]

/-- What is looked for of an accepted record with a given key, and without it. -/
theorem uniqueCandidates_given (accepted : s.validateRequired data = .ok record)
    (identity : List String) : ∃ before after,
      s.uniqueCandidates identity record = before ++ after ∧
      s.uniqueCandidates identity (record.insert c.field k) =
        before ++ ((if c.looksFor identity k then [(c, k)] else []) ++ after) := by
  refine generates.uniqueCandidates_insert ?_ k identity
  rw [Keyed.get?_eq_none_iff] at absent ⊢
  rwa [(Schema.validateData_eq_ok (Schema.validateRequired_eq_ok accepted)).1]

/-- A given key that is not looked for makes no difference, and neither does any if the record is not
accepted or connections are refused. -/
theorem runFrom_resume_insert
    (unasked : ¬ (c.looksFor g.config.identityFields k = true ∧ (s.validateRequired data).isOk = true ∧
      w.1.refusal = none)) :
    runFrom ((create (data.insert c.field k)).resume g.engine s) w =
      runFrom ((create data).resume g.engine s) w := by
  cases accepted : s.validateRequired data with
  | error issues =>
      have refused : s.validateRequired (data.insert c.field k) = .error issues := by
        rw [generates.validateRequired_insert absent, accepted]
        rfl
      rw [resume, resume, accepted, refused]
  | ok record =>
      rw [resume_insert g generates absent k accepted, resume_create g accepted]
      cases free : w.1.refusal with
      | some reason => rw [runFrom_create_refused g free, runFrom_create_refused g free]
      | none =>
          obtain ⟨before, after, without, given⟩ :=
            uniqueCandidates_given generates absent k accepted g.config.identityFields
          have unlooked : c.looksFor g.config.identityFields k = false :=
            Bool.eq_false_iff.2 fun looked => unasked ⟨looked, by rw [accepted]; rfl, free⟩
          rw [unlooked] at given
          rw [g.requireUnique_congr (given.trans without.symm)]

/-- A given key that is looked for is one more check before the same write. -/
theorem interposed_resume (looked : c.looksFor g.config.identityFields k = true)
    (accepted : (s.validateRequired data).isOk = true) (free : w.1.refusal = none) :
    ∃ before after write readBack, (∀ time,
      (create data).plan g s time = .ok ⟨before ++ after, write, readBack⟩ ∧
      (create (data.insert c.field k)).plan g s time =
        .ok ⟨before ++ Check.free s [] (c, k) :: after, write, readBack⟩) ∧
      Interposed g.dialect before (Check.free s [] (c, k)) w (Script.without w before.length)
        (runFrom ((create (data.insert c.field k)).resume g.engine s) w)
        (runFrom ((create data).resume g.engine s) (Script.without w before.length)) := by
  obtain ⟨record, accepted⟩ : ∃ record, s.validateRequired data = .ok record := by
    cases valid : s.validateRequired data with
    | error issues => exact absurd (valid ▸ accepted) (by simp [Except.isOk, Except.toBool])
    | ok record => exact ⟨record, rfl⟩
  obtain ⟨before, after, without, given⟩ :=
    uniqueCandidates_given generates absent k accepted g.config.identityFields
  rw [looked] at given
  refine ⟨before.map (Check.free s []), after.map (Check.free s []),
    .ok (Statement.insert g.dialect.returning s record),
    g.rereads (g.datasource.readInserted s record), fun time => ⟨?_, ?_⟩, ?_⟩
  · rw [plan_create g accepted, without, List.map_append]
  · rw [plan_insert g generates absent k accepted, given, List.map_append]
    rfl
  · rw [resume_insert g generates absent k accepted, resume_create g accepted, List.length_map]
    exact g.interposed without given free fun _ => (Playable.createOne rfl s record).map Reply.record

omit generates absent

/-- A call on a table with a certain schema goes on with that schema. -/
theorem runFrom_perform (call : GuardedCall) {table : String} {u : Script × ρ}
    (arrives : runFrom (g.engine.schema table) u = (.ok s, w)) :
    runFrom (call.perform g.engine table) u = runFrom (call.resume g.engine s) w := by
  rw [perform_eq, runFrom_bind, arrives]

end GuardedCall

/-- **A key that is given although the server generates it is looked for, and otherwise makes no
difference.**

Over documents, storing a record with such a key comes to the same result and the same collections as
storing it without, unless the record is accepted, the check of unique fields looks for the key, and
some document holds it: then the call fails as a duplicate, and nothing is stored.  The record holds no
other generated key; removing several keys may leave the other fields in another order.

Over a relational backend both calls are the same unless the check looks for the key, the record is
accepted and a connection is granted.  Then both have the same write and read the row back alike, but
the call with the key makes one check more, and so it compares with the other call on the script
without the reply to that check. -/
theorem Schema.GeneratesKey.create_given {s : Schema} {c : Column} (generates : s.GeneratesKey c)
    {data : Record} (absent : data.get? c.field = none) (k : Json) (table : String) :
    (∀ (g : Setting) (r : SchemaRegistry (StateM World)) (w v : World),
      (∀ d ∈ s.columns, d.isServerGenerated = true → data.get? d.field = none) →
      runFrom (r.getSchema table none) w = (.ok s, v) →
      runFrom ({ g.engine with registry := r }.createRecord table (data.insert c.field k)) w =
        if (s.validateRequired data).isOk && c.looksFor g.config.identityFields k &&
            v.store.taken s.table (c, k) then (.error .duplicateRecord, v)
        else runFrom ({ g.engine with registry := r }.createRecord table data) w) ∧
    ∀ (ρ : Type) (g : Recorder ρ) (u w : Script × ρ),
      runFrom (g.engine.schema table) u = (.ok s, w) →
      (¬ (c.looksFor g.config.identityFields k = true ∧ (s.validateRequired data).isOk = true ∧
          w.1.refusal = none) →
        runFrom ((GuardedCall.create (data.insert c.field k)).perform g.engine table) u =
          runFrom ((GuardedCall.create data).perform g.engine table) u) ∧
      (c.looksFor g.config.identityFields k = true → (s.validateRequired data).isOk = true →
        w.1.refusal = none →
        ∃ before after write readBack, (∀ time,
          (GuardedCall.create data).plan g s time = .ok ⟨before ++ after, write, readBack⟩ ∧
          (GuardedCall.create (data.insert c.field k)).plan g s time =
            .ok ⟨before ++ Check.free s [] (c, k) :: after, write, readBack⟩) ∧
          ∀ u', runFrom (g.engine.schema table) u' = (.ok s, Script.without w before.length) →
            Interposed g.dialect before (Check.free s [] (c, k)) w (Script.without w before.length)
              (runFrom ((GuardedCall.create (data.insert c.field k)).perform g.engine table) u)
              (runFrom ((GuardedCall.create data).perform g.engine table) u')) := by
  refine ⟨fun g r w v unkeyed arrives => ?_, fun ρ g u w arrives => ⟨fun unasked => ?_, ?_⟩⟩
  · exact g.runFrom_createRecord_insert r generates k unkeyed arrives
  · rw [GuardedCall.runFrom_perform g _ arrives, GuardedCall.runFrom_perform g _ arrives]
    exact GuardedCall.runFrom_resume_insert g generates absent k unasked
  · intro looked accepted free
    obtain ⟨before, after, write, readBack, plans, interposed⟩ :=
      GuardedCall.interposed_resume g generates absent k looked accepted free
    refine ⟨before, after, write, readBack, plans, fun u' arrives' => ?_⟩
    rwa [GuardedCall.runFrom_perform g _ arrives, GuardedCall.runFrom_perform g _ arrives']

namespace Setting

/-- The columns that the one person shows. -/
def personSchema : Schema := .inferred "people" ["name"] [] (onePerson.documents "people")

theorem generatesKey_personSchema : personSchema.GeneratesKey keyColumn where
  key := by rfl
  generated := by rfl
  only := by decide +kernel

/-- A script that finds neither the key nor the name, and stores the person. -/
def storedOnce : Script :=
  { Script.empty with
    replies := [.ok (.fetched [[("total", .nat 0)]]), .ok (.fetched [[("total", .nat 0)]]),
      .ok (.fetched [(documentKey, .string "k") :: grace])] }

/-- The table of people behind a scripted backend. -/
def personRecorder : Recorder Unit := GuardedCall.scripted .postgres personSchema

theorem create_given_people :
    runFrom (tally.engine.createRecord "people" (grace.insert documentKey (.string "b"))) onePerson =
      runFrom (tally.engine.createRecord "people" grace) onePerson ∧
    ∃ before, Interposed .postgres before (Check.free personSchema [] (keyColumn, .string "b"))
      (storedOnce, ()) (Script.without (storedOnce, ()) before.length)
      (runFrom ((GuardedCall.create (grace.insert documentKey (.string "b"))).perform
        personRecorder.engine "people") (storedOnce, ()))
      (runFrom ((GuardedCall.create grace).perform personRecorder.engine "people")
        (Script.without (storedOnce, ()) before.length)) := by
  have absent : grace.get? keyColumn.field = none := by decide
  obtain ⟨documents, rows⟩ :=
    generatesKey_personSchema.create_given absent (.string "b") "people"
  have unkeyed : ∀ d ∈ personSchema.columns, d.isServerGenerated = true →
      grace.get? d.field = none := by decide +kernel
  refine ⟨?_, ?_⟩
  · exact documents tally tally.engine.registry onePerson _ unkeyed rfl
  · obtain ⟨before, after, write, readBack, -, interposed⟩ :=
      (rows Unit personRecorder (storedOnce, ()) (storedOnce, ()) rfl).2
        (by decide +kernel) (by decide +kernel) rfl
    exact ⟨before, interposed _ rfl⟩

/-- A person is not stored under a generated key when the given one is that of another person. -/
theorem refused_given :
    (runFrom (tally.engine.createRecord "people" (grace.insert documentKey (.string "a"))) onePerson).1 =
        .error .duplicateRecord ∧
      (runFrom (tally.engine.createRecord "people" grace) onePerson).1.isOk = true :=
  ⟨Outcome.failsWith_iff.1 (by decide +kernel), by decide +kernel⟩

end Setting

end DataAccess
