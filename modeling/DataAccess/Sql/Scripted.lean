import DataAccess.Sql.Connection
/-
**Scripted connections.**  A backend whose answers are written down beforehand: every statement
takes the next answer of a queue and is recorded, and the connections in use are counted.

Main definitions:

* `Script` — the answers to come, the statements so far, the connections in use;
* `Script.execute` — one statement;
* `Script.connector` — the script as a connector over a state that holds it.

Main results:

* `Script.execute_statements` — every statement is recorded, whatever its answer;
* `Script.execute_open` — a statement neither opens nor releases a connection.
-/

set_option autoImplicit false

namespace DataAccess

/-- A backend with prepared answers. -/
structure Script where
  /-- The answers to come; when there are none left, a statement answers with nothing. -/
  replies : List (Except NativeError QueryOutput)
  /-- The statements so far. -/
  statements : List CompiledQuery
  /-- The connections in use. -/
  opened : Nat
  /-- Why connections are refused, if they are. -/
  refusal : Option String

namespace Script

/-- A script without answers. -/
def empty : Script := ⟨[], [], 0, none⟩

/-- The answer to a statement, and the script after it. -/
def execute (s : Script) (q : CompiledQuery) : Except NativeError QueryOutput × Script :=
  (s.replies.head?.getD (.ok .empty),
    { s with replies := s.replies.tail, statements := s.statements ++ [q] })

@[simp] theorem execute_statements (s : Script) (q : CompiledQuery) :
    (s.execute q).2.statements = s.statements ++ [q] := rfl

@[simp] theorem execute_open (s : Script) (q : CompiledQuery) :
    (s.execute q).2.opened = s.opened := rfl

/-- The script as a connector, as a part of a larger state. -/
def connector {σ : Type} (part : σ → Script) (update : Script → σ → σ) :
    SqlConnector (StateM σ) where
  connect := ExceptT.mk fun w =>
    let s := part w
    match s.refusal with
    | some reason => (.error (.connection reason), w)
    | none =>
      (.ok
        { execute := fun q => ExceptT.mk fun w =>
            let (reply, s) := (part w).execute q
            (reply, update s w)
          release := fun w =>
            ((), update { part w with opened := (part w).opened - 1 } w) },
        update { s with opened := s.opened + 1 } w)

end Script

end DataAccess
