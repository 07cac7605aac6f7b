import DataAccess.Proofs.Query.Merging
/-
**The paths of the nodes.**  A node keeps the path that its table was first reached by.  The table
that this path comes from was joined before it, but possibly along another path: nodes of one table
merge, so a node may be joined to a table whose own node has a path of its own.

Main definitions:

* `RelationNode.comesFrom` — the table that a node's path comes from;
* `RelationNode.otherTable`, `RelationNode.Connects` — the other end of a node's edge, and an edge
  between the two tables;
* `RelationNode.InOrder` — tables are joined before the paths go on from them.

Main results:

* `RelationNode.Connects.otherTable_eq` — such an edge leads to the table that the path comes from;
* `SchemaRegistry.inOrder_walk`, `SchemaRegistry.inOrder_resolve` — a walk keeps the nodes in order,
  refused or not;
* `SchemaRegistry.inOrder_resolveEach` — **after any paths the nodes are in order**.

People who belong to a department and to a company of their own (`SchemaRegistry.firms`) have two ways to
a company.
-/

set_option autoImplicit false

namespace DataAccess

namespace RelationNode

/-! ### Where a node comes from -/

/-- The table that the path of a node comes from: the one of the hop before the last, or the base
table. -/
def comesFrom (base : String) (n : RelationNode) : String :=
  match Text.cutLast '.' n.path with
  | some (before, _) => lastHop before
  | none => base

/-- The other table that the edge of a node names. -/
def otherTable (n : RelationNode) : String :=
  if n.table = n.join.table then n.join.ownTable else n.join.table

/-- The edge of a node connects its table with the one that its path comes from. -/
def Connects (base : String) (n : RelationNode) : Prop :=
  (n.join.table = n.table ∧ n.join.ownTable = n.comesFrom base) ∨
    (n.join.ownTable = n.table ∧ n.join.table = n.comesFrom base)

instance (base : String) (n : RelationNode) : Decidable (n.Connects base) :=
  inferInstanceAs (Decidable (_ ∨ _))

theorem Connects.otherTable_eq {base : String} {n : RelationNode} (connects : n.Connects base) :
    n.otherTable = n.comesFrom base := by
  rw [otherTable]
  split
  · next target =>
    rcases connects with ⟨-, other⟩ | ⟨own, other⟩
    · exact other
    -- both ends are the same table
    · rw [own, target, other]
  · next away =>
    rcases connects with ⟨target, -⟩ | ⟨-, other⟩
    · exact absurd target.symm away
    · exact other

/-! ### Nodes in order -/

/-- A path that goes on from a table has this table's node before its own. -/
def InOrder (nodes : List RelationNode) : Prop :=
  ∀ done n later, nodes = done ++ n :: later →
    ∀ before hop, Text.cutLast '.' n.path = some (before, hop) → lastHop before ∈ done.map table

theorem inOrder_nil : InOrder [] := by
  intro done n later split
  exact absurd split (by simp)

/-- The order of nodes is a matter of their tables and paths. -/
theorem InOrder.congr {nodes nodes' : List RelationNode} (ordered : InOrder nodes)
    (same : nodes'.map (fun n => (n.table, n.path)) = nodes.map fun n => (n.table, n.path)) :
    InOrder nodes' := by
  rintro done n later rfl before hop cut
  rw [List.map_append, List.map_cons] at same
  obtain ⟨done', rest, rfl, first, others⟩ := List.map_eq_append_iff.1 same.symm
  obtain ⟨n', later', rfl, here, -⟩ := List.map_eq_cons_iff.1 others
  have paths : n'.path = n.path := congrArg Prod.snd here
  have joined := ordered done' n' later' rfl before hop (by rw [paths, cut])
  have tables : done'.map table = done.map table := by
    have projected := congrArg (List.map Prod.fst) first
    simpa [Function.comp_def] using projected
  rwa [tables] at joined

/-- A node whose path goes on from a joined table may come last. -/
theorem InOrder.append {nodes : List RelationNode} (ordered : InOrder nodes) {n : RelationNode}
    (follows : ∀ before hop, Text.cutLast '.' n.path = some (before, hop) →
      lastHop before ∈ nodes.map table) : InOrder (nodes ++ [n]) := by
  intro done k later split before hop cut
  rcases List.append_eq_append_iff.1 split with ⟨more, rfl, last⟩ | ⟨more, rfl, rest⟩
  · cases more with
    | nil =>
        obtain ⟨rfl, -⟩ := List.cons.inj last
        rw [List.append_nil]
        exact follows before hop cut
    | cons _ _ => exact absurd (congrArg List.length last) (by simp)
  · cases more with
    | nil =>
        obtain ⟨rfl, -⟩ := List.cons.inj rest
        rw [List.append_nil] at follows
        exact follows before hop cut
    | cons first more =>
        obtain ⟨rfl, -⟩ := List.cons.inj rest
        exact ordered done k more rfl before hop cut

end RelationNode

open RelationNode

namespace SchemaRegistry

open Resolving

variable {σ : Type} (r : SchemaRegistry (StateM σ))

/-! ### Hops, walks and calls -/

/-- A path is either at its start or at a joined table. -/
def At (before : String) (nodes : List RelationNode) : Prop :=
  before = "" ∨ lastHop before ∈ nodes.map table

/-- A hop from a joined table keeps the nodes in order. -/
theorem inOrder_hopNode {before hop : String} (plain : '.' ∉ hop.toList) (current : Schema)
    {nodes : List RelationNode} (ordered : InOrder nodes) (start : At before nodes) :
    Ends (r.hopNode current (if before = "" then hop else before ++ "." ++ hop) hop) nodes
      fun result ns => InOrder ns ∧
        ∀ n, result = .ok n → ns.find? (fun k => k.table = hop) = some n := by
  refine (r.ends_hopped current _ hop nodes).mono ?_
  intro result ns hopped
  have first := hopped.first
  cases hopped with
  | joined found => exact ⟨ordered, first⟩
  | undeclared absent unlinked => exact ⟨ordered, first⟩
  | unserved e absent link => exact ⟨ordered, first⟩
  | appended schema absent link =>
      refine ⟨ordered.append ?_, first⟩
      intro path last cut
      by_cases start_here : before = ""
      · simp only [newNode, if_pos start_here, Text.cutLast_eq_none_iff.2 plain] at cut
        exact absurd cut (by simp)
      · simp only [newNode, if_neg start_here, Text.cutLast_dotted plain, Option.some.injEq,
          Prod.mk.injEq] at cut
        obtain ⟨rfl, -⟩ := cut
        exact start.resolve_left start_here

/-- A walk keeps the nodes in order, refused or not. -/
theorem inOrder_walk (t : Terminal) {hops : List String} (plain : ∀ hop ∈ hops, '.' ∉ hop.toList)
    (current : Schema) {before : String} {nodes : List RelationNode} (ordered : InOrder nodes)
    (start : At before nodes) :
    Ends (r.walk t current before hops) nodes fun _ ns => InOrder ns := by
  induction hops generalizing current before nodes with
  | nil => exact ends_pure ordered
  | cons hop rest ih =>
      rw [walk]
      refine (r.inOrder_hopNode (plain hop List.mem_cons_self) current ordered start).bind ?_ ?_
      · rintro e ns ⟨ordered', -⟩
        exact ordered'
      · rintro n ns ⟨ordered', node⟩
        have first := node n rfl
        cases rest with
        | cons next others =>
            have ends := lastHop_step (plain hop List.mem_cons_self) before
            obtain ⟨member, table_eq⟩ := mem_of_find? first
            refine ih (fun h hh => plain h (List.mem_cons_of_mem _ hh)) n.schema ordered' (.inr ?_)
            rw [ends, ← table_eq]
            exact List.mem_map_of_mem member
        | nil =>
            simp only [List.isEmpty_nil, if_true]
            cases applied : t.apply n with
            | error e => exact ends_throw_bind ordered'
            | ok n' =>
                obtain ⟨columns, condition, rfl⟩ := Terminal.apply_eq applied
                exact ends_modify_bind (ends_pure (ordered'.congr (map_update _ first rfl)))

/-- A path that is resolved keeps the nodes in order, refused or not. -/
theorem inOrder_resolve (s : Schema) (call : ResolverCall) {nodes : List RelationNode}
    (ordered : InOrder nodes) : Ends (r.resolve s call) nodes fun _ ns => InOrder ns := by
  have along (t : Terminal) {hops : List String} {text : String}
      (pieces : ∀ hop ∈ hops, hop ∈ Text.splitOn '.' text) :
      Ends (r.walk t s "" hops) nodes fun _ ns => InOrder ns := by
    refine r.inOrder_walk t ?_ s ordered (.inl rfl)
    intro hop member
    exact Text.mem_splitOn (pieces hop member)
  have split {text terminal : String} {hops : List String}
      (h : splitTerminal text = .ok (hops, terminal)) : ∀ hop ∈ hops, hop ∈ Text.splitOn '.' text := by
    intro hop member
    rw [splitTerminal_hops h] at member
    exact List.dropLast_subset _ member
  cases call with
  | field text =>
      refine ends_liftExcept_bind (fun _ _ => ordered) ?_
      rintro ⟨hops, terminal⟩ cut
      exact along _ (split cut)
  | condition c =>
      have attached : Ends (r.resolveWhere s c) nodes fun _ ns => InOrder ns := by
        refine ends_liftExcept_bind (fun _ _ => ordered) ?_
        rintro ⟨hops, terminal⟩ cut
        refine (along _ (split cut)).bind (fun _ _ ordered' => ordered') ?_
        intro _ ns ordered'
        exact ends_get_bind (ends_pure ordered')
      refine attached.bind (fun _ _ ordered' => ordered') ?_
      intro _ ns ordered'
      exact ends_pure ordered'
  | relation text =>
      rw [resolve, resolveRelation]
      dsimp only
      split
      · exact ends_throw_bind ordered
      · exact along _ fun _ member => member

/-- **After any paths, refused or not, the nodes are in order.** -/
theorem inOrder_resolveEach (s : Schema) (calls : List ResolverCall)
    {nodes nodes' : List RelationNode} {outcomes : List (Outcome Unit)} {w w' : σ}
    (ordered : InOrder nodes)
    (run : (r.resolveEach s calls).run nodes w = ((outcomes, nodes'), w')) : InOrder nodes' :=
  r.resolveEach_keeps (fun ns _ => InOrder ns)
    (fun call _ v ordered => r.inOrder_resolve s call ordered v) ordered run

/-! ### Two ways to a company -/

/-- People belong to departments and to companies, departments to companies, companies to regions. -/
def firmEdges : List Relation :=
  [⟨"department", "_id", "users", "department_id"⟩, ⟨"company", "_id", "users", "company_id"⟩,
    ⟨"company", "_id", "department", "company_id"⟩, ⟨"region", "_id", "company", "region_id"⟩]

/-- A schema with some text fields and the edges of its table. -/
def firmSchema (table : String) (fields : List String) : Schema :=
  .ofColumns table (fields.map fun field => .plain field .string)
    (firmEdges.filter fun e => e.table = table || e.ownTable = table)

/-- The people. -/
def staff : Schema := firmSchema "users" ["_id", "department_id", "company_id"]

/-- A registry of people, departments, companies and regions. -/
def firms : SchemaRegistry (StateM Unit) :=
  uncached [("users", staff), ("department", firmSchema "department" ["_id", "name", "company_id"]),
    ("company", firmSchema "company" ["_id", "name", "region_id"]),
    ("region", firmSchema "region" ["_id", "name"])]

end SchemaRegistry

end DataAccess
