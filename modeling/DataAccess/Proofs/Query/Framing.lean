import DataAccess.Proofs.Query.Merging
/-
**What a path leaves alone.**  A path that is resolved touches little.  Its hops put nodes behind
those that are there, one for each table that is not joined yet, and only the end of the path writes
into a node, which is the one of the last hop.  A path that is refused has written nothing: the nodes
that it leaves behind neither project nor filter.

Main definitions:

* `newNames` — the names of a list that are not there yet, each once and in order;
* `RelationNode.Bare` — a node that is joined and no more;
* `Terminal.Fills`, `Terminal.Leaves` — what the end of a path writes, and what a walk leaves;
* `ResolverCall.ending`, `ResolverCall.route` — what a call asks of its last hop, and the way there.

Main results:

* `foldl_addNew` — adding names one after another appends the new ones;
* `RelationNode.exists_update` — replacing a node keeps the others in their places;
* `SchemaRegistry.leaves_walk` — what a walk leaves, refused or not;
* `SchemaRegistry.runFrom_resolve` — a call is the walk along its hops;
* `SchemaRegistry.leaves_resolve` — **a call appends bare nodes and fills the one of its last hop**.
-/

set_option autoImplicit false

namespace DataAccess

/-! ### New names -/

/-- The requested names that are not there yet, each once and in order. -/
def newNames (present requested : List String) : List String :=
  (requested.filter fun name => name ∉ present).eraseDups

@[simp] theorem newNames_nil (present : List String) : newNames present [] = [] := rfl

theorem newNames_cons (present rest : List String) (name : String) :
    newNames present (name :: rest) =
      if name ∈ present then newNames present rest
      else name :: newNames (present ++ [name]) rest := by
  rw [newNames, List.filter_cons]
  by_cases there : name ∈ present
  · rw [if_pos there, if_neg (by simpa using there), newNames]
  · rw [if_neg there, if_pos (by simpa using there), List.eraseDups_cons, List.filter_filter, newNames]
    congr 3
    funext other
    rw [Bool.eq_iff_iff]
    simp [and_comm]

/-- Names that are added one after another come behind those that are there. -/
theorem foldl_addNew (present requested : List String) :
    requested.foldl addNew present = present ++ newNames present requested := by
  induction requested generalizing present with
  | nil => simp
  | cons name rest ih =>
      rw [List.foldl_cons, ih, newNames_cons, addNew]
      by_cases there : name ∈ present
      · rw [if_pos there, if_pos (by simpa using there)]
      · rw [if_neg there, if_neg (by simpa using there), List.append_assoc, List.singleton_append]

/-! ### Nodes in their places -/

namespace RelationNode

/-- A node that is joined and neither projected nor filtered. -/
def Bare (n : RelationNode) : Prop := n.columns = none ∧ n.condition = none

/-- Replacing the first node of a table keeps the others in their places. -/
theorem exists_update {hop : String} {n : RelationNode} (n' : RelationNode)
    {nodes : List RelationNode} (first : nodes.find? (fun k => k.table = hop) = some n) :
    ∃ before after, nodes = before ++ n :: after ∧ (∀ k ∈ before, k.table ≠ hop) ∧
      update hop (fun _ => n') nodes = before ++ n' :: after := by
  induction nodes with
  | nil => exact absurd first (by simp)
  | cons k rest ih =>
      rw [update]
      by_cases here : k.table = hop
      · have found : k = n := by simpa [here] using first
        rw [if_pos here, found]
        refine ⟨[], rest, rfl, ?_, rfl⟩
        intro k member
        exact absurd member List.not_mem_nil
      · have later : rest.find? (fun k => k.table = hop) = some n := by simpa [here] using first
        obtain ⟨before, after, split, others, replaced⟩ := ih later
        rw [if_neg here, replaced, split]
        refine ⟨k :: before, after, rfl, ?_, rfl⟩
        intro other member
        rcases List.mem_cons.1 member with rfl | member
        · exact here
        · exact others other member

/-- The columns of a node to which some are added. -/
def projecting (n : RelationNode) (requested : List String) : Option (List String) :=
  if requested = [] then n.columns
  else some (n.columns.getD [] ++ newNames (n.columns.getD []) requested)

/-- Columns that are added one after another come behind those that are projected. -/
theorem foldl_addColumn (n : RelationNode) (requested : List String) :
    requested.foldl addColumn n = { n with columns := n.projecting requested } := by
  have all (k : RelationNode) (name : String) (rest : List String) :
      (name :: rest).foldl addColumn k =
        { k with columns := some ((name :: rest).foldl addNew (k.columns.getD [])) } := by
    induction rest generalizing k name with
    | nil => rfl
    | cons other rest ih => exact ih (k.addColumn name) other
  cases requested with
  | nil => rfl
  | cons name rest => rw [all, foldl_addNew, projecting, if_neg (by simp)]

end RelationNode

open RelationNode

/-! ### The end of a path -/

/-- What the end of a path writes into the node of its last hop: columns behind those that are
projected, or a condition with a normalised operand. -/
def Terminal.Fills (t : Terminal) (n n' : RelationNode) : Prop :=
  match t with
  | .field name =>
    n.schema.hasColumn name = true ∧ n' = { n with columns := n.projecting [name] }
  | .condition c => ∃ value,
    n.schema.checkOperand (((c.path?).map Prod.snd).getD c.column) c = .ok value ∧
      n' = { n with condition := some { c with value } }
  | .table => n' = { n with columns := n.projecting n.schema.columnNames }

theorem Terminal.fills_of_apply {t : Terminal} {n n' : RelationNode} (h : t.apply n = .ok n') :
    t.Fills n n' := by
  cases t with
  | field name =>
      rw [apply] at h
      split at h
      · next known => exact ⟨known, (Except.ok.inj h).symm.trans (foldl_addColumn n [name])⟩
      · exact absurd h (by simp)
  | condition c =>
      obtain ⟨value, checked, rfl⟩ := Outcome.map_eq_ok.1 h
      exact ⟨value, checked, rfl⟩
  | table => exact (Except.ok.inj h).symm.trans (foldl_addColumn n n.schema.columnNames)

/-- What the end of a path writes is in the columns and the condition. -/
theorem Terminal.Fills.edge_eq {t : Terminal} {n n' : RelationNode} (fills : t.Fills n n') :
    n'.edge = n.edge := by
  cases t with
  | field name =>
      obtain ⟨-, rfl⟩ := fills
      rfl
  | condition c =>
      obtain ⟨value, -, rfl⟩ := fills
      rfl
  | table => rw [fills, edge, edge]

/-- What a walk along some hops leaves.  It puts bare nodes behind those that were there, for tables
that were not joined, in the order of the hops.  If it is refused, that is all; otherwise every table
is joined, and the node of the last hop is filled in its place. -/
inductive Terminal.Leaves (t : Terminal) (hops : List String) (nodes : List RelationNode) :
    Outcome Unit → List RelationNode → Prop
  | refused {added : List RelationNode} (e : DataError) (bare : ∀ k ∈ added, k.Bare)
      (tables : added.map RelationNode.table <+: newNames (nodes.map RelationNode.table) hops) :
      Leaves t hops nodes (.error e) (nodes ++ added)
  | filled {added before after : List RelationNode} {n n' : RelationNode}
      (bare : ∀ k ∈ added, k.Bare)
      (tables : added.map RelationNode.table = newNames (nodes.map RelationNode.table) hops)
      (places : nodes ++ added = before ++ n :: after) (first : ∀ k ∈ before, k.table ≠ n.table)
      (last : hops.getLast? = some n.table) (fills : t.Fills n n') :
      Leaves t hops nodes (.ok ()) (before ++ n' :: after)

namespace Terminal

/-- What is refused at once leaves the nodes as they were. -/
theorem leaves_nothing (t : Terminal) (hops : List String) (nodes : List RelationNode)
    (e : DataError) : t.Leaves hops nodes (.error e) nodes := by
  have nothing : t.Leaves hops nodes (.error e) (nodes ++ []) := by
    refine .refused e ?_ List.nil_prefix
    intro k member
    exact absurd member List.not_mem_nil
  rwa [List.append_nil] at nothing

/-- What a walk leaves keeps the nodes that were there. -/
theorem Leaves.kept {t : Terminal} {hops : List String} {nodes ns : List RelationNode}
    {result : Outcome Unit} (left : t.Leaves hops nodes result ns) : Kept nodes ns := by
  cases left with
  | @refused added e bare tables => exact ⟨added.map edge, List.map_append.symm⟩
  | @filled added before after n n' bare tables places first last fills =>
      refine ⟨added.map edge, ?_⟩
      rw [← List.map_append, places, List.map_append, List.map_append, List.map_cons, List.map_cons,
        fills.edge_eq]

/-- A hop to a table that is joined adds nothing to what the other hops leave. -/
theorem Leaves.joined {t : Terminal} {hop next : String} {rest : List String}
    {nodes ns : List RelationNode} {result : Outcome Unit} (there : hop ∈ nodes.map RelationNode.table)
    (others : t.Leaves (next :: rest) nodes result ns) :
    t.Leaves (hop :: next :: rest) nodes result ns := by
  have same : newNames (nodes.map RelationNode.table) (hop :: next :: rest) =
      newNames (nodes.map RelationNode.table) (next :: rest) := by
    rw [newNames_cons, if_pos there]
  cases others with
  | refused e bare tables => exact .refused e bare (by rwa [same])
  | filled bare tables places first last fills =>
      refine .filled bare (by rwa [same]) places first ?_ fills
      rw [List.getLast?_cons_cons, last]

/-- A hop to another table adds its node to what the other hops leave. -/
theorem Leaves.appended {t : Terminal} {next : String} {rest : List String} {n : RelationNode}
    {nodes ns : List RelationNode} {result : Outcome Unit} (absent : n.table ∉ nodes.map RelationNode.table)
    (bare : n.Bare) (others : t.Leaves (next :: rest) (nodes ++ [n]) result ns) :
    t.Leaves (n.table :: next :: rest) nodes result ns := by
  have more : newNames (nodes.map RelationNode.table) (n.table :: next :: rest) =
      n.table :: newNames ((nodes ++ [n]).map RelationNode.table) (next :: rest) := by
    rw [newNames_cons, if_neg absent, List.map_append, List.map_singleton]
  have all {added : List RelationNode} (rest_bare : ∀ k ∈ added, k.Bare) :
      ∀ k ∈ n :: added, k.Bare := List.forall_mem_cons.2 ⟨bare, rest_bare⟩
  cases others with
  | @refused added e rest_bare tables =>
      rw [List.append_assoc, List.singleton_append]
      refine .refused e (all rest_bare) ?_
      rw [more, List.map_cons]
      exact List.cons_prefix_cons.2 ⟨rfl, tables⟩
  | @filled added before after k k' rest_bare tables places first last fills =>
      refine .filled (all rest_bare) ?_ ?_ first ?_ fills
      · rw [more, List.map_cons, tables]
      · rw [← places, List.append_assoc, List.singleton_append]
      · rw [List.getLast?_cons_cons, last]

end Terminal

namespace SchemaRegistry

open Resolving

variable {σ : Type} (r : SchemaRegistry (StateM σ))

/-! ### Hops -/

/-- What a hop leaves: its node is there, or a bare one of its table is appended. -/
theorem leaves_hopNode (current : Schema) (path hop : String) (nodes : List RelationNode) :
    Ends (r.hopNode current path hop) nodes fun result ns =>
      match result with
      | .error _ => ns = nodes
      | .ok n => ns.find? (fun k => k.table = hop) = some n ∧
          (ns = nodes ∨ hop ∉ nodes.map table ∧ n.Bare ∧ ns = nodes ++ [n]) := by
  refine (r.ends_hopped current path hop nodes).mono ?_
  intro result ns hopped
  have first := hopped.first
  cases hopped with
  | joined found => exact ⟨found, .inl rfl⟩
  | undeclared absent unlinked => rfl
  | unserved e absent link => rfl
  | appended schema absent link => exact ⟨first _ rfl, .inr ⟨absent, ⟨rfl, rfl⟩, rfl⟩⟩

/-- What a hop adds is bare, and its table is that of the hop if it was not joined. -/
theorem exists_added {hop : String} {n : RelationNode} {nodes ns : List RelationNode}
    (first : ns.find? (fun k => k.table = hop) = some n)
    (placed : ns = nodes ∨ hop ∉ nodes.map table ∧ n.Bare ∧ ns = nodes ++ [n]) :
    ∃ added, ns = nodes ++ added ∧ (∀ k ∈ added, k.Bare) ∧
      added.map table = newNames (nodes.map table) [hop] := by
  obtain ⟨member, named⟩ := mem_of_find? first
  rw [newNames_cons, newNames_nil, newNames_nil]
  rcases placed with rfl | ⟨absent, bare, rfl⟩
  · have there : hop ∈ ns.map table := named ▸ List.mem_map_of_mem member
    refine ⟨[], (List.append_nil ns).symm, ?_, by rw [if_pos there, List.map_nil]⟩
    intro k none
    exact absurd none List.not_mem_nil
  · refine ⟨[n], rfl, ?_, by rw [if_neg absent, List.map_singleton, named]⟩
    intro k single
    rwa [List.mem_singleton.1 single]

/-- What a walk leaves, refused or not. -/
theorem leaves_walk (t : Terminal) (hop : String) (rest : List String) (current : Schema)
    (before : String) (nodes : List RelationNode) :
    Ends (r.walk t current before (hop :: rest)) nodes (t.Leaves (hop :: rest) nodes) := by
  induction rest generalizing hop current before nodes with
  | nil =>
      rw [walk]
      refine (r.leaves_hopNode current _ hop nodes).bind ?_ ?_
      · rintro e ns rfl
        exact t.leaves_nothing [hop] ns e
      · rintro n ns ⟨first, placed⟩
        obtain ⟨-, named⟩ := mem_of_find? first
        obtain ⟨added, rfl, bare, tables⟩ := exists_added first placed
        simp only [List.isEmpty_nil, if_true]
        cases applied : t.apply n with
        | error e =>
            exact ends_throw_bind (.refused e bare (tables ▸ List.prefix_rfl))
        | ok n' =>
            obtain ⟨pre, post, places, others, replaced⟩ := exists_update n' first
            refine ends_modify_bind (ends_pure ?_)
            rw [replaced]
            refine .filled bare tables places ?_ ?_ (Terminal.fills_of_apply applied)
            · rwa [named]
            · rw [named]
              rfl
  | cons next rest ih =>
      rw [walk]
      refine (r.leaves_hopNode current _ hop nodes).bind ?_ ?_
      · rintro e ns rfl
        exact t.leaves_nothing _ ns e
      · rintro n ns ⟨first, placed⟩
        obtain ⟨member, named⟩ := mem_of_find? first
        refine (ih next n.schema _ ns).mono ?_
        intro result ns' others
        rcases placed with rfl | ⟨absent, bare, rfl⟩
        · exact others.joined (named ▸ List.mem_map_of_mem member)
        · rw [← named] at absent ⊢
          exact others.appended absent bare

end SchemaRegistry

/-! ### Calls -/

namespace ResolverCall

/-- What a call asks of its last hop. -/
def ending : ResolverCall → Terminal
  | .field path => .field (lastHop path)
  | .condition c => .condition c
  | .relation _ => .table

/-- The hops that a call walks, unless a segment of its path is missing. -/
def route (call : ResolverCall) : Outcome (List String) :=
  match call with
  | .field path => Prod.fst <$> SchemaRegistry.splitTerminal path
  | .condition c => Prod.fst <$> SchemaRegistry.splitTerminal c.column
  | .relation path =>
    if call.hops.any (fun h => h = "") then .error (.validation s!"Invalid relation {path}")
    else .ok call.hops

end ResolverCall

namespace SchemaRegistry

open Resolving

variable {σ : Type} (r : SchemaRegistry (StateM σ))

/-- The hops and the end of a dotted name are its segments. -/
theorem splitTerminal_segments {name terminal : String} {hops : List String}
    (h : splitTerminal name = .ok (hops, terminal)) :
    hops = (Text.splitOn '.' name).dropLast ∧ terminal = lastHop name ∧ hops ≠ [] := by
  obtain ⟨path, cut, split⟩ := splitTerminal_eq_ok h
  refine ⟨splitTerminal_hops h, ?_, ?_⟩
  · rw [lastHop, Text.splitOn_of_cutLast cut, List.getLast?_concat]
    rfl
  · rw [split]
    exact Text.splitOn_ne_nil '.' path

/-- A call that walks, walks its hops, of which there is one at least. -/
theorem route_eq_ok {call : ResolverCall} {hops : List String} (h : call.route = .ok hops) :
    hops = call.hops ∧ hops ≠ [] := by
  have segments {name : String} (split : Prod.fst <$> splitTerminal name = .ok hops) :
      hops = (Text.splitOn '.' name).dropLast ∧ hops ≠ [] := by
    obtain ⟨⟨_, terminal⟩, pieces, rfl⟩ := Outcome.map_eq_ok.1 split
    obtain ⟨same, -, some_hop⟩ := splitTerminal_segments pieces
    exact ⟨same, some_hop⟩
  cases call with
  | field path => exact segments h
  | condition c => exact segments h
  | relation path =>
      rw [ResolverCall.route] at h
      split at h
      · exact absurd h (by simp)
      · obtain rfl := Except.ok.inj h
        exact ⟨rfl, Text.splitOn_ne_nil '.' path⟩

/-- A call is refused at once, or it is the walk along its hops. -/
theorem runFrom_resolve (s : Schema) (call : ResolverCall) (nodes : List RelationNode) (w : σ) :
    (r.resolve s call).runFrom nodes w =
      match call.route with
      | .error e => ((.error e, nodes), w)
      | .ok hops => (r.walk call.ending s "" hops).runFrom nodes w := by
  cases call with
  | field path =>
      rw [resolve, resolveField, runFrom_bind, ResolverCall.route]
      cases split : splitTerminal path with
      | error e => rfl
      | ok pieces =>
          obtain ⟨-, named, -⟩ := splitTerminal_segments split
          rw [ResolverCall.ending, ← named]
          rfl
  | condition c =>
      rw [resolve, runFrom_bind, resolveWhere, runFrom_bind, ResolverCall.route]
      cases split : splitTerminal c.column with
      | error e => rfl
      | ok pieces =>
          have cut : runFrom (liftExcept (.ok pieces : Outcome (List String × String)) :
              Resolving (StateM σ) (List String × String)) nodes w =
              ((.ok pieces, nodes), w) := rfl
          -- the operand is read back once the walk has returned, and dropped
          simp only [cut, runFrom_bind, ResolverCall.ending, Except.map_ok]
          rcases (r.walk (.condition c) s "" pieces.1).runFrom nodes w with ⟨⟨_ | _, _⟩, _⟩ <;> rfl
  | relation path =>
      rw [resolve, resolveRelation, ResolverCall.route, ResolverCall.hops]
      dsimp only
      split <;> rfl

/-- **A call appends bare nodes, one for each table that was not joined, and fills the node of its
last hop.**  A call that is refused leaves all nodes as they were, and only bare ones behind them. -/
theorem leaves_resolve (s : Schema) (call : ResolverCall) (nodes : List RelationNode) :
    Ends (r.resolve s call) nodes (call.ending.Leaves call.hops nodes) := by
  intro w
  rw [runFrom_resolve]
  cases walked : call.route with
  | error e => exact call.ending.leaves_nothing call.hops nodes e
  | ok hops =>
      obtain ⟨rfl, some_hop⟩ := route_eq_ok walked
      obtain ⟨hop, rest, split⟩ := List.exists_cons_of_ne_nil some_hop
      rw [split]
      exact r.leaves_walk call.ending hop rest s "" nodes w

end SchemaRegistry

end DataAccess
