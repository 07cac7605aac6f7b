import DataAccess.Query.Params
import DataAccess.Schema.Registry
/-
**Resolving relations.**  A dotted path such as `department.company.name` is walked hop by hop: each
hop must be a declared relation of the table before it, and every joined table becomes one node.
Nodes of one table merge within a request, so a table that is reached along a second path keeps the
path and the join it was first reached by.

Main definitions:

* `RelationNode` — one joined table of a request;
* `RelationNode.find` — the node that a dotted path addresses;
* `Resolving` — the effects of resolving: the nodes so far survive a failure;
* `Terminal` — what the end of a path asks of its last hop;
* `SchemaRegistry.walk` — the hops of a path, one after another;
* `SchemaRegistry.resolveField`, `SchemaRegistry.resolveWhere`, `SchemaRegistry.resolveRelation`.

Main results:

* `RelationNode.addColumn_nodup` — projected columns never repeat;
* `RelationNode.mem_of_find?`, `RelationNode.find?_eq_none_iff` — what a look-up among nodes finds.
-/

set_option autoImplicit false

namespace DataAccess

/-- One joined table of a request. -/
structure RelationNode where
  /-- The joined table, which is also the name it is addressed by. -/
  table : String
  /-- The dotted path of hops from the base table. -/
  path : String
  /-- The edge that joins this hop to the one before it. -/
  join : Relation
  schema : Schema
  /-- The projected fields; without any the table is joined and not projected. -/
  columns : Option (List String)
  /-- The filter on this hop, if the last hop of a condition ends here. -/
  condition : Option WhereCondition
deriving Repr

namespace RelationNode

/-- The node with a further projected column. -/
def addColumn (n : RelationNode) (column : String) : RelationNode :=
  { n with columns := some (addNew (n.columns.getD []) column) }

theorem addNew_nodup {names : List String} (h : names.Nodup) (name : String) :
    (addNew names name).Nodup := by
  unfold addNew
  split
  · exact h
  · next absent =>
    rw [List.nodup_append]
    refine ⟨h, by simp, ?_⟩
    intro a ha b hb e
    simp only [List.mem_singleton] at hb
    subst hb e
    exact absent (by simpa using ha)

theorem addColumn_nodup {n : RelationNode} (h : (n.columns.getD []).Nodup) (column : String) :
    ((n.addColumn column).columns.getD []).Nodup := by
  simpa [addColumn] using addNew_nodup h column

/-- The last hop of a dotted path. -/
def lastHop (path : String) : String := ((Text.splitOn '.' path).getLast?).getD path

/-- The node that a path addresses: the one with that path, else the one of its last hop's table. -/
def find (nodes : List RelationNode) (path : String) : Option RelationNode :=
  match nodes.find? fun n => n.path = path with
  | some n => some n
  | none => nodes.find? fun n => n.table = lastHop path

/-- A node that is found by its table, or by its path, is there and has it. -/
theorem mem_of_find? {β : Type} [DecidableEq β] {f : RelationNode → β} {b : β} {n : RelationNode}
    {nodes : List RelationNode} (found : nodes.find? (fun k => f k = b) = some n) :
    n ∈ nodes ∧ f n = b :=
  ⟨List.mem_of_find?_eq_some found, by simpa using List.find?_some found⟩

/-- None is found exactly if none has it. -/
theorem find?_eq_none_iff {β : Type} [DecidableEq β] {f : RelationNode → β} {b : β}
    {nodes : List RelationNode} : nodes.find? (fun k => f k = b) = none ↔ b ∉ nodes.map f := by
  simp [List.find?_eq_none]

/-- Replaces the first node of a table. -/
def update (table : String) (f : RelationNode → RelationNode) :
    List RelationNode → List RelationNode
  | [] => []
  | n :: rest => if n.table = table then f n :: rest else n :: update table f rest

end RelationNode

/-- The effects of resolving: the nodes found so far are kept even when a path is refused. -/
abbrev Resolving (m : Type → Type) := ExceptT DataError (StateT (List RelationNode) m)

/-- What the end of a path asks of its last hop. -/
inductive Terminal
  /-- Project a field. -/
  | field (name : String)
  /-- Filter on a field. -/
  | condition (c : WhereCondition)
  /-- Project every column. -/
  | table
deriving Repr

/-- The last hop's node after the end of a path. -/
def Terminal.apply (t : Terminal) (n : RelationNode) : Outcome RelationNode :=
  match t with
  | .field name =>
    if n.schema.hasColumn name then .ok (n.addColumn name) else .error (.unknownField name n.table)
  | .condition c =>
    let field := ((c.path?).map Prod.snd).getD c.column
    (n.schema.checkOperand field c).map fun value => { n with condition := some { c with value } }
  | .table => .ok (n.schema.columnNames.foldl RelationNode.addColumn n)

namespace SchemaRegistry

variable {m : Type → Type} [Monad m]

/-- The node of a hop: the one of its table, or a new one along a declared relation. -/
def hopNode (r : SchemaRegistry m) (current : Schema) (path hop : String) :
    Resolving m RelationNode := do
  -- a table that is already joined is taken as it is, whatever relation leads to it
  match (← get).find? fun n => n.table = hop with
  | some n => return n
  | none =>
    match current.links.lookup hop with
    | none => throw (.unknownRelation hop current.table)
    | some (join, _) =>
      let schema ← ExceptT.mk (StateT.lift (r.getSchema hop none).run)
      let n : RelationNode := { table := hop, path, join, schema, columns := none, condition := none }
      modify (· ++ [n])
      return n

/-- Walks the hops of a path from `current`, whose own path is `before`, and applies the end of the
path to the last hop. -/
def walk (r : SchemaRegistry m) (t : Terminal) (current : Schema) (before : String) :
    List String → Resolving m Unit
  | [] => return ()
  | hop :: rest => do
    let path := if before = "" then hop else before ++ "." ++ hop
    let n ← r.hopNode current path hop
    if rest.isEmpty then
      match t.apply n with
      | .ok n => modify (RelationNode.update hop fun _ => n)
      | .error e => throw e
    walk r t n.schema path rest

/-- The hops and the end of a dotted path; every segment must be named and one hop is needed. -/
def splitTerminal (path : String) : Outcome (List String × String) :=
  let segments := Text.splitOn '.' path
  match segments.getLast? with
  | some terminal =>
    if 2 ≤ segments.length ∧ segments.all (fun s => s ≠ "") then .ok (segments.dropLast, terminal)
    else .error (.validation s!"Invalid relation path {path}")
  | none => .error (.validation s!"Invalid relation path {path}")

/-- Joins every hop of `relation.field` and projects the field. -/
def resolveField (r : SchemaRegistry m) (s : Schema) (field : String) : Resolving m Unit := do
  let (hops, terminal) ← liftExcept (splitTerminal field)
  r.walk (.field terminal) s "" hops

/-- Joins every hop of a dotted condition and attaches the condition to the last one; the result is
the condition with its operand normalised. -/
def resolveWhere (r : SchemaRegistry m) (s : Schema) (c : WhereCondition) :
    Resolving m WhereCondition := do
  let (hops, _) ← liftExcept (splitTerminal c.column)
  r.walk (.condition c) s "" hops
  -- the operand was normalised in the node of the last hop
  let last := (← get).reverse.find? fun n => hops.getLast? = some n.table
  return (last.bind RelationNode.condition).getD c

/-- Joins every segment of a path of relations and projects the last table in full. -/
def resolveRelation (r : SchemaRegistry m) (s : Schema) (path : String) : Resolving m Unit := do
  let hops := Text.splitOn '.' path
  if hops.any (fun h => h = "") then throw (.validation s!"Invalid relation {path}")
  r.walk .table s "" hops

end SchemaRegistry

end DataAccess
