import DataAccess.Config
import DataAccess.Schema.Coercion
import DataAccess.Text.Quoted
import DataAccess.Text.Split
/-
**SQL dialects.**  The relational backends differ in how names are quoted, how bound values are
marked, how a page is cut, how written rows come back, and in their error codes.  Everything else
is the same statement for all of them.

Main definitions:

* `Dialect`, `Backend.dialect` — the three dialects and the backends that speak them;
* `Dialect.quote`, `Dialect.placeholder`, `Dialect.window` — the syntax that differs;
* `Dialect.returning` — how the rows of a write come back;
* `Dialect.classify` — what a backend's own failures mean.

Main results:

* `Dialect.readQuoted_quote` — a quoted name reads back as the name.
-/

set_option autoImplicit false

namespace DataAccess

/-- A relational dialect. -/
inductive Dialect
  | postgres
  | mysql
  | mssql
deriving DecidableEq, Repr

/-- How a dialect returns the rows that a statement wrote. -/
inductive Returning
  /-- A clause at the end of the statement. -/
  | clause
  /-- A clause before the values or the condition. -/
  | output
  /-- A second statement that reads the row by its key. -/
  | reselect
deriving DecidableEq, Repr

/-- The dialect of a backend. -/
def Backend.dialect : Backend → Outcome Dialect
  | .postgres => .ok .postgres
  | .mysql => .ok .mysql
  | .mssql => .ok .mssql
  | .mongodb => .error (.config s!"{Backend.mongodb.name} is not a relational backend")

namespace Dialect

/-- The name of a dialect. -/
def name : Dialect → String
  | .postgres => "postgres"
  | .mysql => "mysql"
  | .mssql => "mssql"

/-! ### Names and bound values -/

/-- The delimiter that opens a quoted name. -/
def opening : Dialect → Char
  | .postgres => '"'
  | .mysql => '\x60'
  | .mssql => '['

/-- The delimiter that closes a quoted name. -/
def closing : Dialect → Char
  | .postgres => '"'
  | .mysql => '\x60'
  | .mssql => ']'

/-- A quoted name; the closing delimiter is doubled inside. -/
def quote (d : Dialect) (ident : String) : String :=
  String.ofList (Text.enclose d.opening d.closing ident.toList)

theorem readQuoted_quote (d : Dialect) (ident : String) (rest : List Char)
    (h : rest.head? ≠ some d.closing) :
    Text.readQuoted d.closing ((d.quote ident).toList.tail ++ rest) = some (ident.toList, rest) := by
  simpa [quote, Text.enclose] using Text.readQuoted_enclose ident.toList rest h

/-- The mark of the `n`th bound value, counted from one. -/
def placeholder (d : Dialect) (n : Nat) : String :=
  match d with
  | .postgres => s!"${n}"
  | .mysql => "?"
  | .mssql => s!"@p{n}"

/-- How booleans are stored. -/
def booleans : Dialect → BooleanStorage
  | .postgres => .native
  | .mysql | .mssql => .integer

/-! ### Clauses -/

/-- How the rows of a write come back. -/
def returning : Dialect → Returning
  | .postgres => .clause
  | .mysql => .reselect
  | .mssql => .output

/-- The clause that cuts a page; one dialect needs an order before it. -/
def window (d : Dialect) (limit offset : Nat) (ordered : Bool) : String :=
  match d with
  | .postgres | .mysql => s!"LIMIT {limit} OFFSET {offset}"
  | .mssql =>
    let fetch := s!"OFFSET {offset} ROWS FETCH NEXT {limit} ROWS ONLY"
    if ordered then fetch else "ORDER BY (SELECT NULL) " ++ fetch

/-- The operator of a pattern match that ignores letter case. -/
def like : Dialect → String
  | .postgres => "ILIKE"
  | .mysql | .mssql => "LIKE"

/-- The expression for the key that the last insert generated. -/
def lastInsertId : Dialect → Option String
  | .mysql => some "LAST_INSERT_ID()"
  | .postgres | .mssql => none

/-- The modifier of a column whose value the server generates. -/
def identity : Dialect → String
  | .postgres => "GENERATED BY DEFAULT AS IDENTITY"
  | .mysql => "AUTO_INCREMENT"
  | .mssql => "IDENTITY(1,1)"

/-! ### Failures -/

/-- What a failure of the backend means. -/
def classify (d : Dialect) (e : NativeError) : DataError :=
  match d, e.code with
  | .postgres, some "23505" => .duplicateRecord
  | .postgres, some "23503" => .foreignKeyViolation
  | .postgres, some "23502" => .notNullViolation
  | .postgres, some "23514" => .checkConstraintViolation
  | .mysql, some "1062" => .duplicateRecord
  | .mysql, some "1451" | .mysql, some "1452" => .foreignKeyViolation
  | .mysql, some "1048" => .notNullViolation
  | .mysql, some "3819" => .checkConstraintViolation
  | .mssql, some "2627" | .mssql, some "2601" => .duplicateRecord
  | .mssql, some "515" => .notNullViolation
  | .mssql, some "547" =>
    if Text.occursIn "CHECK".toList e.message.toList then .checkConstraintViolation
    else .foreignKeyViolation
  | _, _ => e.unclassified

end Dialect

end DataAccess
