import DataAccess.Sql.Token
import DataAccess.Text.Blank
import DataAccess.Text.Split
/-
**Connections to relational backends.**  Statements run on connections.  A connector makes one
connection per operation, and the connection is released when the operation ends, whether it
succeeds or fails.

Main definitions:

* `QueryOutput` — the rows of a statement and how many it affected;
* `returnsRows` — whether a statement answers with rows;
* `SqlConnection`, `SqlConnector` — the operations, with effects in a monad;
* `SqlConnector.withConnection` — an operation on a connection of its own.

Main results:

* `QueryOutput.affected_fetched` — rows that were read back count as affected.
-/

set_option autoImplicit false

namespace DataAccess

/-! ### Results -/

/-- The result of a statement. -/
structure QueryOutput where
  rows : List Record
  /-- The number of rows that a write affected. -/
  affected : Nat
deriving Repr

namespace QueryOutput

/-- No rows, none affected. -/
def empty : QueryOutput := ⟨[], 0⟩

/-- The rows of a JSON list of objects; what is no object is left out. -/
def ofJson (v : Json) : QueryOutput := ⟨(v.asList?.getD []).filterMap Json.asRecord?, 0⟩

/-- Rows that a statement answered with; each counts as affected. -/
def fetched (rows : List Record) : QueryOutput := ⟨rows, rows.length⟩

@[simp] theorem affected_fetched (rows : List Record) :
    (fetched rows).affected = (fetched rows).rows.length := rfl

end QueryOutput

/-- Whether a statement answers with rows: a query, or a write with a clause that returns them. -/
def returnsRows (sql : String) : Bool :=
  let upper := (Text.trimStart sql.toList).map Char.toUpper
  "SELECT".toList.isPrefixOf upper || "WITH".toList.isPrefixOf upper ||
    Text.occursIn " RETURNING ".toList upper || Text.occursIn " OUTPUT INSERTED.".toList upper

/-! ### Connections -/

/-- A connection, with effects in `m`. -/
structure SqlConnection (m : Type → Type) where
  execute : CompiledQuery → ExceptT NativeError m QueryOutput
  /-- Gives the connection back. -/
  release : m Unit

/-- A way to get connections, with effects in `m`. -/
structure SqlConnector (m : Type → Type) where
  connect : ExceptT DataError m (SqlConnection m)

/-- An operation on a connection of its own, released at the end in any case. -/
def SqlConnector.withConnection {m : Type → Type} [Monad m] {α : Type} (c : SqlConnector m)
    (use : SqlConnection m → ExceptT DataError m α) : ExceptT DataError m α := do
  let connection ← c.connect
  ExceptT.mk do
    let result ← (use connection).run
    connection.release
    return result

end DataAccess
