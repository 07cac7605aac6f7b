import DataAccess.Sql.Token
import DataAccess.Query.Relations
import DataAccess.Query.Pagination
/-
**The statements of the data access.**  Reads, counts and writes of one table are compiled to
statements.  The clauses come in a fixed order: projection, joins, conditions, order, page.

Main definitions:

* `Statement.select`, `Statement.count`, `Statement.countMatching` — reads;
* `Statement.insert`, `Statement.update`, `Statement.delete`, `Statement.softDelete` — writes;
* `Statement.selectByKey` — reading a written row back;
* `Statement.conditions` — the conditions of a read, each resolved to its table.

Main results:

* `Statement.update_empty` — an update without fields is refused.
-/

set_option autoImplicit false

namespace DataAccess.Statement

/-! ### Parts of statements -/

/-- A column of a table. -/
def qualified (table column : String) : Statement := [.name table, .text ".", .name column]

/-- Statements with a text between neighbours. -/
def separated (separator : String) (parts : List Statement) : Statement :=
  [Token.text separator].intercalate parts

/-- A column of a table under another name. -/
def aliased (table column other : String) : Statement :=
  qualified table column ++ [.text " AS ", .name other]

/-- The projected columns: all of the base table, or some fields with the primary key in front, and
then those of the joined tables under their paths. -/
def projection (s : Schema) (fields : Option (List String)) (nodes : List RelationNode) :
    Statement :=
  let fields := fields.getD []
  let base :=
    if fields.isEmpty then [[.name s.table, .text ".*"]]
    else
      let key := if s.primaryKey ≠ "" ∧ ¬ fields.contains s.primaryKey then [s.primaryKey] else []
      (key ++ fields).map fun field => aliased s.table field field
  let joined := nodes.flatMap fun n =>
    (n.columns.getD []).map fun field => aliased n.table field s!"{n.path}.{field}"
  separated ", " (base ++ joined)

/-- The joins of the relation nodes, in order. -/
def joins (nodes : List RelationNode) : Statement :=
  nodes.flatMap fun n =>
    [.text " LEFT JOIN ", .name n.table, .text " ON "] ++
      qualified n.join.ownTable n.join.ownColumn ++ [.text " = "] ++
      qualified n.join.table n.join.column

/-- A condition on a column of some type. -/
def condition (target : Statement) (type : ColumnType) (c : WhereCondition) : Statement :=
  let compare (operator : String) : Statement := target ++ [.text operator, .slot type c.value]
  let listed (operator constant : String) : Statement :=
    if c.values.isEmpty then [.text constant]
    else
      target ++ [.text operator] ++ separated ", " (c.values.map fun v => [.slot type v]) ++
        [.text ")"]
  match c.operator with
  | .equals => compare " = "
  | .notEquals => compare " <> "
  | .gt => compare " > "
  | .gte => compare " >= "
  | .lt => compare " < "
  | .lte => compare " <= "
  | .search =>
    target ++ [.text " ", .like, .text " ", .slot .string (.string ("%" ++ c.value.bareText ++ "%"))]
  | .isIn => listed " IN (" "1 = 0"
  | .notIn => listed " NOT IN (" "1 = 1"
  | .null => target ++ [.text " IS NULL"]
  | .notNull => target ++ [.text " IS NOT NULL"]

/-- The table, the field and the schema that a condition addresses. -/
def address (s : Schema) (nodes : List RelationNode) (c : WhereCondition) :
    Outcome (String × String × Schema) :=
  match c.path? with
  | some (path, field) =>
    match RelationNode.find nodes path with
    | some n => .ok (n.table, field, n.schema)
    | none => .error (.unknownRelation path s.table)
  | none => .ok (s.table, c.column, s)

/-- A condition, resolved to its table and column. -/
def resolved (s : Schema) (nodes : List RelationNode) (c : WhereCondition) : Outcome Statement := do
  let (table, field, schema) ← address s nodes c
  match schema.column? field with
  | some column => return condition (qualified table field) column.type c
  | none => throw (.unknownField field schema.table)

/-- The conditions of a read, all of which must hold. -/
def conditions (s : Schema) (nodes : List RelationNode) (cs : List WhereCondition) :
    Outcome Statement := do
  let clauses ← cs.mapM (resolved s nodes)
  return if clauses.isEmpty then [] else [.text " WHERE "] ++ separated " AND " clauses

/-- The order of a read; clauses on joined tables do not count. -/
def order (s : Schema) (sort : List SortCondition) : Statement :=
  let terms := (sort.filter fun c => !c.isDeep).map fun c =>
    qualified s.table c.column ++ [.text (" " ++ c.direction.keyword)]
  if terms.isEmpty then [] else [.text " ORDER BY "] ++ separated ", " terms

/-! ### Reads -/

/-- Reads rows. -/
def select (s : Schema) (fields : Option (List String)) (nodes : List RelationNode)
    (cs : List WhereCondition) (sort : List SortCondition) (window : Option Window) :
    Outcome Statement := do
  let filter ← conditions s nodes cs
  let ordering := order s sort
  let page : Statement := match window with
    | some w => [.text " ", .window w.limit w.offset (!ordering.isEmpty)]
    | none => []
  return [.text "SELECT "] ++ projection s fields nodes ++ [.text " FROM ", .name s.table] ++
    joins nodes ++ filter ++ ordering ++ page

/-- Counts rows with the joins and conditions of a read. -/
def count (s : Schema) (nodes : List RelationNode) (cs : List WhereCondition) :
    Outcome Statement := do
  let filter ← conditions s nodes cs
  return [.text "SELECT COUNT(*) AS total FROM ", .name s.table] ++ joins nodes ++ filter

/-- Counts the rows with a value in a field, apart from the row with a key. -/
def countMatching (s : Schema) (field : String) (value : Json) (excluded : Option Json) :
    Outcome Statement := do
  let equal : WhereCondition := ⟨field, .equals, value⟩
  match excluded with
  | none => count s [] [equal]
  | some id => count s [] [equal, ⟨← s.primaryKeyField, .notEquals, id⟩]

/-! ### Writes -/

/-- The type of the primary key column. -/
def keyType (s : Schema) (primaryKey : String) : ColumnType :=
  ((s.column? primaryKey).map Column.type).getD .unknown

/-- The columns that an insert writes, with their values: those that the server generates are left
to it. -/
def inserted (s : Schema) (data : Record) : List (Column × Json) :=
  s.columns.filterMap fun c =>
    if c.isServerGenerated then none else (data.get? c.field).map fun v => (c, v)

/-- Writes a row. -/
def insert (style : Returning) (s : Schema) (data : Record) : Statement :=
  let cells := inserted s data
  let columns := separated ", " (cells.map fun (c, _) => [.name c.field])
  let values := separated ", " (cells.map fun (c, v) => [.slot c.type v])
  let into : Statement := [.text "INSERT INTO ", .name s.table]
  let listed (between : String) : Statement :=
    [.text " ("] ++ columns ++ [.text between] ++ values ++ [.text ")"]
  match style, cells.isEmpty with
  | .clause, true => into ++ [.text " DEFAULT VALUES RETURNING *"]
  | .clause, false => into ++ listed ") VALUES (" ++ [.text " RETURNING *"]
  | .output, true => into ++ [.text " OUTPUT INSERTED.* DEFAULT VALUES"]
  | .output, false => into ++ listed ") OUTPUT INSERTED.* VALUES ("
  | .reselect, true => into ++ [.text " () VALUES ()"]
  | .reselect, false => into ++ listed ") VALUES ("

/-- Reads a written row by its key; without a key, the row of the last generated one. -/
def selectByKey (d : Dialect) (s : Schema) (id : Option Json) : Outcome Statement := do
  let primaryKey ← s.primaryKeyField
  let target : Token ← match id with
    | some id => pure (.slot (keyType s primaryKey) id)
    | none =>
      match d.lastInsertId with
      | some expression => pure (.text expression)
      | none => throw (.backend s!"{d.name} cannot read back generated keys")
  return [.text "SELECT * FROM ", .name s.table, .text " WHERE "] ++ qualified s.table primaryKey ++
    [.text " = ", target]

/-- The columns that an update writes, with their values: the key is never written. -/
def updated (s : Schema) (primaryKey : String) (data : Record) : List (Column × Json) :=
  s.columns.filterMap fun c =>
    if c.field = primaryKey then none else (data.get? c.field).map fun v => (c, v)

/-- Changes the row with a key. -/
def update (style : Returning) (s : Schema) (id : Json) (data : Record) : Outcome Statement := do
  let primaryKey ← s.primaryKeyField
  let cells := updated s primaryKey data
  if cells.isEmpty then throw (.validation "No fields provided to update")
  let assignments := cells.map fun (c, v) => [.name c.field, .text " = ", .slot c.type v]
  let filter : Statement :=
    [.text " WHERE ", .name primaryKey, .text " = ", .slot (keyType s primaryKey) id]
  let change : Statement :=
    [.text "UPDATE ", .name s.table, .text " SET "] ++ separated ", " assignments
  return match style with
    | .clause => change ++ filter ++ [.text " RETURNING *"]
    | .output => change ++ [.text " OUTPUT INSERTED.*"] ++ filter
    | .reselect => change ++ filter

theorem update_empty {s : Schema} {data : Record} {primaryKey : String}
    (key : s.primaryKeyField = .ok primaryKey) (h : updated s primaryKey data = [])
    (style : Returning) (id : Json) :
    update style s id data = .error (.validation "No fields provided to update") := by
  simp [update, key, h, bind, Except.bind, throw, throwThe, MonadExceptOf.throw]

/-- Removes the row with a key. -/
def delete (s : Schema) (id : Json) : Outcome Statement := do
  let primaryKey ← s.primaryKeyField
  return [.text "DELETE FROM ", .name s.table, .text " WHERE ", .name primaryKey, .text " = ",
    .slot (keyType s primaryKey) id]

/-- Stamps a column of the row with a key instead of removing the row. -/
def softDelete (s : Schema) (id : Json) (column timestamp : String) : Outcome Statement := do
  let primaryKey ← s.primaryKeyField
  if s.hasColumn column then
    return [.text "UPDATE ", .name s.table, .text " SET ", .name column, .text " = ",
      .slot .string (.string timestamp), .text " WHERE ", .name primaryKey, .text " = ",
      .slot (keyType s primaryKey) id]
  else throw (.unknownField column s.table)

end DataAccess.Statement
