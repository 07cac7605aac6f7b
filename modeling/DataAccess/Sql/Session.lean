import DataAccess.Sql.Cell
import DataAccess.Sql.Connection
/-
**Sessions over a driver.**  A session sends statements with bound values and reads typed replies.
What a statement answers with is settled by its text: one that returns rows is answered by its rows
and their number, any other by the number of rows that it affected.

Main definitions:

* `SentStatement` — a statement as the driver sends it;
* `SessionReply` — what a backend replies;
* `SessionReply.output` — the result of a statement out of the reply;
* `ScriptedSession` — a backend whose replies are written down beforehand;
* `ScriptedSession.connector` — it as a connector over a state that holds it.

Main results:

* `SessionReply.output_failed` — a failure of the backend is the result of any statement;
* `ScriptedSession.exchange_sent` — every statement is recorded, whatever the reply.
-/

set_option autoImplicit false

namespace DataAccess

/-- A statement as a driver sends it. -/
structure SentStatement where
  driver : SqlDriver
  sql : String
  bound : List BoundValue
deriving Repr

namespace SentStatement

/-- A compiled statement with its values bound. -/
def ofQuery (driver : SqlDriver) (q : CompiledQuery) : SentStatement :=
  ⟨driver, q.sql, q.params.map BoundValue.ofJson⟩

/-- The serialised form, which shows the announced type of every value. -/
def toJson (s : SentStatement) : Json :=
  let shown (v : BoundValue) : Json :=
    .object [("type", .string (v.typeName s.driver)), ("value", v.sent s.driver)]
  .object [("sql", .string s.sql), ("bound", .array (s.bound.map shown))]

end SentStatement

/-- What a backend replies to a statement. -/
inductive SessionReply
  /-- Rows under columns with names and types, and the number of rows that were affected. -/
  | answered (columns : List (String × String)) (rows : List (List Json)) (affected : Nat)
  | failed (failure : NativeError)
deriving Repr

/-- The result of a statement out of the reply. -/
def SessionReply.output (driver : SqlDriver) (sql : String) :
    SessionReply → Except NativeError QueryOutput
  | .failed e => .error e
  | .answered columns rows affected =>
    .ok (if returnsRows sql then .fetched (rows.map (driver.readRow columns))
      else ⟨[], affected⟩)

@[simp] theorem SessionReply.output_failed (driver : SqlDriver) (sql : String) (e : NativeError) :
    (SessionReply.failed e).output driver sql = .error e := rfl

/-- A backend with prepared replies. -/
structure ScriptedSession where
  /-- The replies to come; when there are none left, no rows come back and none are affected. -/
  replies : List SessionReply
  /-- The statements that were sent. -/
  sent : List SentStatement

namespace ScriptedSession

/-- The result of a statement, and the backend after it. -/
def exchange (s : ScriptedSession) (driver : SqlDriver) (q : CompiledQuery) :
    Except NativeError QueryOutput × ScriptedSession :=
  ((s.replies.head?.getD (.answered [] [] 0)).output driver q.sql,
    { s with replies := s.replies.tail, sent := s.sent ++ [.ofQuery driver q] })

@[simp] theorem exchange_sent (s : ScriptedSession) (driver : SqlDriver) (q : CompiledQuery) :
    (s.exchange driver q).2.sent = s.sent ++ [.ofQuery driver q] := rfl

/-- The backend as a connector, as a part of a larger state. -/
def connector {σ : Type} (driver : SqlDriver) (part : σ → ScriptedSession)
    (update : ScriptedSession → σ → σ) : SqlConnector (StateM σ) where
  connect := return {
    execute := fun q => ExceptT.mk fun w =>
      let (result, s) := (part w).exchange driver q
      (result, update s w)
    release := return () }

end ScriptedSession

end DataAccess
