import DataAccess.Sql.Datasource
import DataAccess.Sql.Scripted
import DataAccess.Proofs.Action
import DataAccess.Proofs.Outcome
/-
**What a script records.**  Over a scripted backend every statement is recorded beside the reply that
it takes.  An operation leaves a trace of such exchanges, and the traces of operations one after another
follow each other.  Connections come and go on the way; where they are refused, nothing is recorded.

Main definitions:

* `Exchange` — a statement and the reply to it;
* `Replied` — the replies of a trace are the first ones of a list;
* `Recorded` — a trace leads from one state of the script to another;
* `Records` — a run leaves a trace and comes to a result that have a property;
* `Script.connection` — a connection of the script;
* `CompiledQuery.isWrite` — whether the text of a statement is that of a write.

Main results:

* `replied_append`, `Recorded.append` — traces follow each other;
* `Recorded.unique` — two states settle the trace between them;
* `Records.bind` — the trace of a sequence of two operations;
* `Records.withConnection` — an operation on a connection of its own;
* `SqlDatasource.records_runStatement` — one statement is one exchange;
* `settled_withConnection` — where connections are refused, nothing is recorded;
* `Statement.Opens.isWrite_read`, `Statement.Opens.isWrite_write` — reads and writes are told apart by
  the words that they begin with.
-/

set_option autoImplicit false

namespace DataAccess

open DataAccess.Action

/-- A statement and the reply to it. -/
structure Exchange where
  query : CompiledQuery
  reply : Except NativeError QueryOutput

variable {ρ α β : Type}

/-! ### Replies -/

/-- The replies of a trace are the first ones of a list; beyond the list they are empty. -/
def Replied (replies : List (Except NativeError QueryOutput)) (log : List Exchange) : Prop :=
  ∀ (i : Nat) (exchange : Exchange), log[i]? = some exchange →
    exchange.reply = (replies[i]?).getD (.ok .empty)

section Replies

variable {replies : List (Except NativeError QueryOutput)} {log more : List Exchange}

theorem replied_nil : Replied replies [] := fun _ _ found => absurd found (by simp)

theorem replied_single {q : CompiledQuery} :
    Replied replies [⟨q, replies.head?.getD (.ok .empty)⟩] := by
  intro i exchange found
  obtain ⟨first, rfl⟩ := List.getElem?_eq_some_iff.1 found
  obtain rfl : i = 0 := by simpa using first
  rw [← List.head?_eq_getElem?]
  rfl

/-- The replies of traces one after another. -/
theorem replied_append : Replied replies (log ++ more) ↔
    Replied replies log ∧ Replied (replies.drop log.length) more := by
  constructor
  · intro replied
    constructor
    · intro i exchange found
      refine replied i exchange ?_
      rw [List.getElem?_append_left (List.getElem?_eq_some_iff.1 found).1, found]
    · intro i exchange found
      rw [List.getElem?_drop]
      refine replied _ exchange ?_
      rw [List.getElem?_append_right (Nat.le_add_right _ _), Nat.add_sub_cancel_left, found]
  · rintro ⟨first, second⟩ i exchange found
    rcases Nat.lt_or_ge i log.length with early | late
    · rw [List.getElem?_append_left early] at found
      exact first i exchange found
    · rw [List.getElem?_append_right late] at found
      rw [second _ exchange found, List.getElem?_drop, Nat.add_sub_cancel' late]

end Replies

/-! ### Traces

The script is a part of the state; operations on the datasource leave the rest of it alone. -/

/-- The exchanges of a trace lead from one state to another: its statements are recorded, its replies
are the next ones of the script, and where these have run out a statement is answered with nothing. -/
structure Recorded (w : Script × ρ) (log : List Exchange) (v : Script × ρ) : Prop where
  statements : v.1.statements = w.1.statements ++ log.map Exchange.query
  replied : ∀ (i : Nat) (exchange : Exchange), log[i]? = some exchange →
    exchange.reply = (w.1.replies[i]?).getD (.ok .empty)
  replies : v.1.replies = w.1.replies.drop log.length
  opened : v.1.opened = w.1.opened
  refusal : v.1.refusal = w.1.refusal
  rest : v.2 = w.2

namespace Recorded

theorem refl (w : Script × ρ) : Recorded w [] w where
  statements := (List.append_nil _).symm
  replied := replied_nil
  replies := rfl
  opened := rfl
  refusal := rfl
  rest := rfl

/-- A statement is one exchange. -/
theorem execute (w : Script × ρ) (q : CompiledQuery) :
    Recorded w [⟨q, (w.1.execute q).1⟩] ((w.1.execute q).2, w.2) where
  statements := rfl
  replied := replied_single
  replies := List.drop_one.symm
  opened := rfl
  refusal := rfl
  rest := rfl

/-- Traces follow each other. -/
theorem append {u v w : Script × ρ} {log more : List Exchange} (first : Recorded u log v)
    (second : Recorded v more w) : Recorded u (log ++ more) w where
  statements := by
    rw [second.statements, first.statements, List.map_append, List.append_assoc]
  replied := by
    have later := second.replied
    rw [first.replies] at later
    exact replied_append.2 ⟨first.replied, later⟩
  replies := by rw [second.replies, first.replies, List.drop_drop, List.length_append]
  opened := second.opened.trans first.opened
  refusal := second.refusal.trans first.refusal
  rest := second.rest.trans first.rest

/-- Two states have one trace between them at most. -/
theorem unique {w v : Script × ρ} {log log' : List Exchange} (h : Recorded w log v)
    (h' : Recorded w log' v) : log = log' := by
  have queries : log.map Exchange.query = log'.map Exchange.query :=
    List.append_cancel_left (h.statements.symm.trans h'.statements)
  have length : log.length = log'.length := by simpa using congrArg List.length queries
  refine List.ext_getElem length fun i first second => ?_
  have query : log[i].query = log'[i].query := by
    simpa [first, second] using congrArg (·[i]?) queries
  have reply : log[i].reply = log'[i].reply :=
    (h.replied i _ (List.getElem?_eq_getElem first)).trans
      (h'.replied i _ (List.getElem?_eq_getElem second)).symm
  match log[i], log'[i], query, reply with
  | ⟨_, _⟩, ⟨_, _⟩, rfl, rfl => rfl

end Recorded

/-! ### What a run records -/

/-- A run records a trace that has a property together with the result. -/
def Records (x : Action (Script × ρ) α) (w : Script × ρ)
    (post : List Exchange → Outcome α → Prop) : Prop :=
  ∃ log, Recorded w log (x.runFrom w).2 ∧ post log (x.runFrom w).1

namespace Records

variable {x : Action (Script × ρ) α} {w : Script × ρ} {p q : List Exchange → Outcome α → Prop}

theorem mono (h : Records x w p) (weaker : ∀ log result, p log result → q log result) :
    Records x w q := by
  obtain ⟨log, recorded, holds⟩ := h
  exact ⟨log, recorded, weaker log _ holds⟩

/-- What leaves the state alone records nothing. -/
theorem of_runFrom {result : Outcome α} (run : x.runFrom w = (result, w)) (holds : p [] result) :
    Records x w p := by
  rw [Records, run]
  exact ⟨[], Recorded.refl w, holds⟩

theorem pure {a : α} (holds : p [] (.ok a)) : Records (Pure.pure a) w p :=
  of_runFrom rfl holds

theorem lift {result : Outcome α} (holds : p [] result) : Records (liftExcept result) w p :=
  of_runFrom (runFrom_liftExcept result w) holds

/-- Two operations one after another record the one trace after the other, unless the first fails. -/
theorem bind {f : α → Action (Script × ρ) β} {post : List Exchange → Outcome β → Prop}
    (first : Records x w p)
    (second : ∀ log a v, Recorded w log v → p log (.ok a) →
      Records (f a) v fun more result => post (log ++ more) result)
    (failed : ∀ log e, p log (.error e) → post log (.error e)) :
    Records (x >>= f) w post := by
  obtain ⟨log, recorded, holds⟩ := first
  rw [Records, runFrom_bind]
  rcases run : x.runFrom w with ⟨_ | a, v⟩
  · rw [run] at recorded holds
    exact ⟨log, recorded, failed log _ holds⟩
  · rw [run] at recorded holds
    obtain ⟨more, after, done⟩ := second log a v recorded holds
    exact ⟨log ++ more, recorded.append after, done⟩

theorem map {f : α → β} {post : List Exchange → Outcome β → Prop} (h : Records x w p)
    (mapped : ∀ log result, p log result → post log (f <$> result)) :
    Records (f <$> x) w post := by
  obtain ⟨log, recorded, holds⟩ := h
  rw [Records, runFrom_map]
  exact ⟨log, recorded, mapped log _ holds⟩

end Records

/-! ### Connections -/

/-- The script as the first part of a state. -/
def Script.paired : SqlConnector (StateM (Script × ρ)) :=
  Script.connector Prod.fst fun s w => (s, w.2)

/-- A connection of the script. -/
def Script.connection : SqlConnection (StateM (Script × ρ)) where
  execute q := ExceptT.mk fun w => ((w.1.execute q).1, ((w.1.execute q).2, w.2))
  release := fun w => ((), ({ w.1 with opened := w.1.opened - 1 }, w.2))

section Connections

variable {w : Script × ρ} {use : SqlConnection (StateM (Script × ρ)) → Action (Script × ρ) α}

theorem runFrom_connect (w : Script × ρ) :
    runFrom (Script.paired (ρ := ρ)).connect w = match w.1.refusal with
      | some reason => (.error (.connection reason), w)
      | none => (.ok Script.connection, ({ w.1 with opened := w.1.opened + 1 }, w.2)) := rfl

theorem runFrom_withConnection (free : w.1.refusal = none) :
    runFrom (Script.paired.withConnection use) w =
      match runFrom (use Script.connection) ({ w.1 with opened := w.1.opened + 1 }, w.2) with
      | (result, v) => (result, ({ v.1 with opened := v.1.opened - 1 }, v.2)) := by
  rw [SqlConnector.withConnection, runFrom_bind, runFrom_connect, free]
  rfl

/-- A connection that is given back leaves nothing behind. -/
theorem Recorded.released {v : Script × ρ} {log : List Exchange}
    (recorded : Recorded ({ w.1 with opened := w.1.opened + 1 }, w.2) log v) :
    Recorded w log ({ v.1 with opened := v.1.opened - 1 }, v.2) where
  statements := recorded.statements
  replied := recorded.replied
  replies := recorded.replies
  opened := by
    have taken := recorded.opened
    dsimp only at taken ⊢
    rw [taken, Nat.add_sub_cancel]
  refusal := recorded.refusal
  rest := recorded.rest

/-- An operation on a connection of its own records what it records there. -/
theorem Records.withConnection {post : List Exchange → Outcome α → Prop} (free : w.1.refusal = none)
    (h : ∀ v : Script × ρ, Records (use Script.connection) v post) :
    Records (Script.paired.withConnection use) w post := by
  obtain ⟨log, recorded, holds⟩ := h ({ w.1 with opened := w.1.opened + 1 }, w.2)
  rw [Records, runFrom_withConnection free]
  exact ⟨log, recorded.released, holds⟩

/-- Where connections are refused, an operation that needs one ends there. -/
theorem runFrom_withConnection_refused {reason : String} (refused : w.1.refusal = some reason) :
    runFrom (Script.paired.withConnection use) w = (.error (.connection reason), w) := by
  rw [SqlConnector.withConnection, runFrom_bind, runFrom_connect, refused]

theorem settled_withConnection {reason : String} (refused : w.1.refusal = some reason) :
    Settled (fun v => v = w) (Script.paired.withConnection use) := by
  refine ⟨.error (.connection reason), ?_⟩
  rintro v rfl
  exact ⟨v, runFrom_withConnection_refused refused, rfl⟩

end Connections

namespace SqlDatasource

variable (d : SqlDatasource (StateM (Script × ρ)))

/-- A statement is answered by the script, and a reply that is a failure is classified. -/
theorem runFrom_runStatement (s : Statement) (w : Script × ρ) :
    runFrom (d.runStatement Script.connection s) w =
      ((w.1.execute (s.compile d.dialect)).1.mapError d.dialect.classify,
        ((w.1.execute (s.compile d.dialect)).2, w.2)) := by
  have replied : (Script.connection.execute (s.compile d.dialect)).run w =
      ((w.1.execute (s.compile d.dialect)).1, ((w.1.execute (s.compile d.dialect)).2, w.2)) := rfl
  rw [runStatement, run, runFrom_bind, runFrom_lift, replied]
  cases (w.1.execute (s.compile d.dialect)).1 <;> rfl

/-- One statement is one exchange. -/
theorem records_runStatement (s : Statement) (w : Script × ρ) :
    Records (d.runStatement Script.connection s) w fun log result =>
      (∃ output, log = [⟨s.compile d.dialect, .ok output⟩] ∧ result = .ok output) ∨
        ∃ e, log = [⟨s.compile d.dialect, .error e⟩] ∧ result = .error (d.dialect.classify e) := by
  have recorded := Recorded.execute w (s.compile d.dialect)
  rw [Records, runFrom_runStatement]
  cases reply : (w.1.execute (s.compile d.dialect)).1 with
  | error e =>
      rw [reply] at recorded
      exact ⟨_, recorded, .inr ⟨e, rfl, rfl⟩⟩
  | ok output =>
      rw [reply] at recorded
      exact ⟨_, recorded, .inl ⟨output, rfl, rfl⟩⟩

/-- What follows a statement goes on with its output, or does not follow. -/
theorem records_runStatement_bind {s : Statement} {f : QueryOutput → Action (Script × ρ) α}
    {w : Script × ρ} {post : List Exchange → Outcome α → Prop}
    (answered : ∀ output v, Records (f output) v fun more result =>
      post (⟨s.compile d.dialect, .ok output⟩ :: more) result)
    (failed : ∀ e, post [⟨s.compile d.dialect, .error e⟩] (.error (d.dialect.classify e))) :
    Records (d.runStatement Script.connection s >>= f) w post := by
  refine (d.records_runStatement s w).bind ?_ ?_
  · rintro _ output v - (⟨output', rfl, result⟩ | ⟨e, -, result⟩)
    · rw [Except.ok.inj result]
      exact answered output' v
    · exact absurd result (by simp)
  · rintro _ e (⟨output, -, result⟩ | ⟨e', rfl, result⟩)
    · exact absurd result (by simp)
    · rw [Except.error.inj result]
      exact failed e'

end SqlDatasource

/-! ### Statements that write -/

/-- Whether the text of a statement is that of a write. -/
def CompiledQuery.isWrite (q : CompiledQuery) : Bool :=
  ["INSERT ", "UPDATE ", "DELETE "].any fun word => word.toList.isPrefixOf q.sql.toList

namespace Statement

/-- The text of a statement begins with that of its first token. -/
theorem toList_sql_text (d : Dialect) (word : String) (rest : Statement) :
    (compile d (.text word :: rest)).sql.toList =
      word.toList ++ (renderFrom d 0 rest).toList := by
  rw [compile, render, renderFrom, String.toList_append]
  rfl

/-- A statement that begins with one of certain words. -/
def Opens (q : Statement) (words : List String) : Prop :=
  ∃ word ∈ words, ∃ rest, q = .text word :: rest

/-- The words that reads begin with. -/
def readWords : List String := ["SELECT ", "SELECT COUNT(*) AS total FROM ", "SELECT * FROM "]

/-- The words that writes begin with. -/
def writeWords : List String := ["INSERT INTO ", "UPDATE ", "DELETE FROM "]

theorem Opens.isWrite_read {q : Statement} (h : q.Opens readWords) (d : Dialect) :
    (q.compile d).isWrite = false := by
  obtain ⟨word, member, rest, rfl⟩ := h
  simp only [readWords, List.mem_cons, List.not_mem_nil, or_false] at member
  rw [CompiledQuery.isWrite, toList_sql_text]
  rcases member with rfl | rfl | rfl <;> rfl

theorem Opens.isWrite_write {q : Statement} (h : q.Opens writeWords) (d : Dialect) :
    (q.compile d).isWrite = true := by
  obtain ⟨word, member, rest, rfl⟩ := h
  simp only [writeWords, List.mem_cons, List.not_mem_nil, or_false] at member
  rw [CompiledQuery.isWrite, toList_sql_text]
  rcases member with rfl | rfl | rfl <;> rfl

/-- The statement that removes a record, or stamps a column of it. -/
def removal (s : Schema) (id : Json) (time : Timestamp) : Option String → Outcome Statement
  | none => delete s id
  | some column => softDelete s id column time.native

variable {s : Schema} {id : Json} {q : Statement}

theorem opens_select {fields : Option (List String)} {nodes : List RelationNode}
    {cs : List WhereCondition} {sort : List SortCondition} {window : Option Window}
    (h : select s fields nodes cs sort window = .ok q) : q.Opens readWords := by
  obtain ⟨filter, -, h⟩ := Outcome.bind_eq_ok.1 h
  exact ⟨"SELECT ", by decide, _, (Except.ok.inj h).symm⟩

theorem opens_count {nodes : List RelationNode} {cs : List WhereCondition}
    (h : count s nodes cs = .ok q) : q.Opens readWords := by
  obtain ⟨filter, -, h⟩ := Outcome.bind_eq_ok.1 h
  exact ⟨"SELECT COUNT(*) AS total FROM ", by decide, _, (Except.ok.inj h).symm⟩

theorem opens_selectByKey {d : Dialect} {id : Option Json} (h : selectByKey d s id = .ok q) :
    q.Opens readWords := by
  obtain ⟨key, -, h⟩ := Outcome.bind_eq_ok.1 h
  refine ⟨"SELECT * FROM ", by decide, ?_⟩
  cases id with
  | some id => exact ⟨_, (Except.ok.inj h).symm⟩
  | none =>
      cases expression : d.lastInsertId with
      | some expression' =>
          simp only [expression] at h
          exact ⟨_, (Except.ok.inj h).symm⟩
      | none =>
          simp only [expression] at h
          exact absurd h (by simp [throw, throwThe, MonadExceptOf.throw, bind, Except.bind])

/-- Every insert begins with the same words. -/
theorem exists_insert_eq (style : Returning) (s : Schema) (data : Record) :
    ∃ rest, insert style s data = .text "INSERT INTO " :: rest := by
  cases empty : (inserted s data).isEmpty <;> cases style <;>
    simp only [insert, empty, List.append_assoc, List.cons_append, List.nil_append] <;>
    exact ⟨_, rfl⟩

theorem opens_insert (style : Returning) (s : Schema) (data : Record) :
    (insert style s data).Opens writeWords :=
  ⟨"INSERT INTO ", by decide, exists_insert_eq style s data⟩

theorem opens_update {style : Returning} {data : Record} (h : update style s id data = .ok q) :
    q.Opens writeWords := by
  obtain ⟨key, -, h⟩ := Outcome.bind_eq_ok.1 h
  refine ⟨"UPDATE ", by decide, ?_⟩
  cases empty : (updated s key data).isEmpty with
  | true => simp [empty, throw, throwThe, MonadExceptOf.throw, bind, Except.bind] at h
  | false =>
      simp only [empty, Bool.false_eq_true, if_false] at h
      cases style <;> exact ⟨_, (Except.ok.inj h).symm⟩

theorem opens_removal {time : Timestamp} {stamped : Option String}
    (h : removal s id time stamped = .ok q) : q.Opens writeWords := by
  cases stamped with
  | none =>
      obtain ⟨key, -, h⟩ := Outcome.bind_eq_ok.1 h
      exact ⟨"DELETE FROM ", by decide, _, (Except.ok.inj h).symm⟩
  | some column =>
      obtain ⟨key, -, h⟩ := Outcome.bind_eq_ok.1 h
      split at h
      · exact ⟨"UPDATE ", by decide, _, (Except.ok.inj h).symm⟩
      · exact absurd h (by simp [throw, throwThe, MonadExceptOf.throw])

end Statement

end DataAccess
