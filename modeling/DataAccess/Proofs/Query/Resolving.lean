import DataAccess.Proofs.Outcome
import DataAccess.Query.Relations
/-
**What resolving does to the nodes.**  A path that is resolved leaves a node for each of its hops.
Nodes that were there before stay as they are, apart from the columns and the condition that the end
of a path adds; new ones are put at the end, each along an edge of the schema that the walk comes
from.

Main definitions:

* `Resolving.Returns` — a run that succeeds, with the nodes and the state around it;
* `Resolving.Ends` — what a run leaves, whether it succeeds or not;
* `RelationNode.edge` — a node without its columns and its condition;
* `SchemaRegistry.Hopped` — how a hop ends.

Main results:

* `Resolving.returns_bind` — a sequence of two steps succeeds exactly when both do;
* `Resolving.Ends.bind` — what a sequence of two steps leaves;
* `SchemaRegistry.runFrom_hopNode` — what one hop comes to;
* `SchemaRegistry.returns_hopNode` — the node of a hop is there already or comes last;
* `SchemaRegistry.ends_hopped` — a hop ends in one of four ways;
* `SchemaRegistry.returns_walk_cons` — one hop of a walk.
-/

set_option autoImplicit false

namespace DataAccess

/-! ### Runs -/

namespace Resolving

variable {σ α β : Type}

/-- The result of a run, the nodes and the state after it. -/
def runFrom (x : Resolving (StateM σ) α) (nodes : List RelationNode) (w : σ) :
    (Outcome α × List RelationNode) × σ :=
  x.run nodes w

/-- From these nodes and this state, a run returns `a` and leaves those nodes and that state. -/
def Returns (x : Resolving (StateM σ) α) (nodes : List RelationNode) (w : σ) (a : α)
    (nodes' : List RelationNode) (w' : σ) : Prop :=
  x.runFrom nodes w = ((.ok a, nodes'), w')

theorem runFrom_bind (x : Resolving (StateM σ) α) (f : α → Resolving (StateM σ) β)
    (nodes : List RelationNode) (w : σ) :
    runFrom (x >>= f) nodes w = match x.runFrom nodes w with
      | ((.ok a, ns), v) => (f a).runFrom ns v
      | ((.error e, ns), v) => ((.error e, ns), v) := by
  change (match x.runFrom nodes w with
    | ((a, ns), v) => StateT.run (ExceptT.bindCont f a) ns v) = _
  rcases x.runFrom nodes w with ⟨⟨_ | _, _⟩, _⟩ <;> rfl

theorem runFrom_map (f : α → β) (x : Resolving (StateM σ) α) (nodes : List RelationNode) (w : σ) :
    runFrom (f <$> x) nodes w = match x.runFrom nodes w with
      | ((result, ns), v) => ((f <$> result, ns), v) := by
  rw [← bind_pure_comp, runFrom_bind]
  rcases x.runFrom nodes w with ⟨⟨_ | _, _⟩, _⟩ <;> rfl

theorem returns_pure {a b : α} {nodes nodes' : List RelationNode} {w w' : σ} :
    Returns (pure a) nodes w b nodes' w' ↔ a = b ∧ nodes = nodes' ∧ w = w' := by
  have run : runFrom (pure a) nodes w = ((.ok a, nodes), w) := rfl
  simp only [Returns, run, Prod.mk.injEq, Except.ok.injEq, and_assoc]

theorem returns_throw {e : DataError} {a : α} {nodes nodes' : List RelationNode} {w w' : σ} :
    ¬ Returns (throw e) nodes w a nodes' w' := by
  have run : runFrom (throw e : Resolving (StateM σ) α) nodes w = ((.error e, nodes), w) := rfl
  simp [Returns, run]

theorem returns_bind {x : Resolving (StateM σ) α} {f : α → Resolving (StateM σ) β} {b : β}
    {nodes nodes' : List RelationNode} {w w' : σ} :
    Returns (x >>= f) nodes w b nodes' w' ↔
      ∃ a ns v, Returns x nodes w a ns v ∧ Returns (f a) ns v b nodes' w' := by
  unfold Returns
  rw [runFrom_bind]
  constructor
  · intro h
    cases hx : x.runFrom nodes w with
    | mk first v =>
        obtain ⟨result, ns⟩ := first
        rw [hx] at h
        cases result with
        | error e => simp at h
        | ok a => exact ⟨a, ns, v, rfl, h⟩
  · rintro ⟨a, ns, v, hx, hf⟩
    rw [hx]
    exact hf

theorem returns_get {nodes ns nodes' : List RelationNode} {w w' : σ} :
    Returns get nodes w ns nodes' w' ↔ nodes = ns ∧ nodes = nodes' ∧ w = w' := by
  have run : runFrom get nodes w = ((.ok nodes, nodes), w) := rfl
  simp only [Returns, run, Prod.mk.injEq, Except.ok.injEq, and_assoc]

theorem returns_modify {f : List RelationNode → List RelationNode} {u : PUnit}
    {nodes nodes' : List RelationNode} {w w' : σ} :
    Returns (modify f) nodes w u nodes' w' ↔ f nodes = nodes' ∧ w = w' := by
  have run : runFrom (modify f) nodes w = ((.ok PUnit.unit, f nodes), w) := rfl
  simp only [Returns, run, Prod.mk.injEq, true_and]

theorem returns_liftExcept {x : Outcome α} {a : α} {nodes nodes' : List RelationNode} {w w' : σ} :
    Returns (liftExcept x) nodes w a nodes' w' ↔ x = .ok a ∧ nodes = nodes' ∧ w = w' := by
  have run : runFrom (liftExcept x) nodes w = ((x, nodes), w) := by
    cases x <;> rfl
  simp only [Returns, run, Prod.mk.injEq, and_assoc]

/-- What each step keeps of the nodes, a loop keeps. -/
theorem Returns.forM (inv : List RelationNode → Prop) {f : α → Resolving (StateM σ) PUnit}
    (step : ∀ a ns v u ns' v', inv ns → Returns (f a) ns v u ns' v' → inv ns') {items : List α}
    {u : PUnit} {nodes nodes' : List RelationNode} {w w' : σ} (start : inv nodes)
    (run : Returns (items.forM f) nodes w u nodes' w') : inv nodes' := by
  induction items generalizing nodes w with
  | nil =>
      obtain ⟨-, rfl, rfl⟩ := returns_pure.1 run
      exact start
  | cons a rest ih =>
      obtain ⟨_, ns, v, first, others⟩ := returns_bind.1 run
      exact ih (step a _ _ _ _ _ start first) others

/-- What each step keeps of a value and the nodes, a fold keeps. -/
theorem Returns.foldlM (inv : β → List RelationNode → Prop) {f : β → α → Resolving (StateM σ) β}
    (step : ∀ b a ns v b' ns' v', inv b ns → Returns (f b a) ns v b' ns' v' → inv b' ns')
    {items : List α} {b b' : β} {nodes nodes' : List RelationNode} {w w' : σ}
    (start : inv b nodes) (run : Returns (items.foldlM f b) nodes w b' nodes' w') :
    inv b' nodes' := by
  induction items generalizing b nodes w with
  | nil =>
      obtain ⟨rfl, rfl, rfl⟩ := returns_pure.1 run
      exact start
  | cons a rest ih =>
      rw [List.foldlM_cons] at run
      obtain ⟨next, ns, v, first, others⟩ := returns_bind.1 run
      exact ih (step _ a _ _ _ _ _ start first) others

/-- A run without a failure returns. -/
theorem returns_of_isOk {x : Resolving (StateM σ) Unit} {nodes : List RelationNode} {w : σ}
    (h : (x.runFrom nodes w).1.1.isOk = true) :
    Returns x nodes w () (x.runFrom nodes w).1.2 (x.runFrom nodes w).2 := by
  unfold Returns
  generalize x.runFrom nodes w = result at h ⊢
  obtain ⟨⟨e | u, ns⟩, v⟩ := result
  · exact absurd h Bool.false_ne_true
  · rfl

/-- A run whose result passes a test returns. -/
theorem exists_returns {x : Resolving (StateM σ) α} {nodes : List RelationNode} {w : σ}
    {p : α → Bool} (h : (x.runFrom nodes w).1.1.toOption.any p = true) :
    ∃ a ns v, Returns x nodes w a ns v ∧ p a = true := by
  unfold Returns
  generalize x.runFrom nodes w = result at h ⊢
  obtain ⟨⟨e | a, ns⟩, v⟩ := result
  · exact absurd h (by simp [Except.toOption])
  · exact ⟨a, ns, v, rfl, h⟩

/-- A run of the registry keeps the nodes. -/
theorem runFrom_lift (x : ExceptT DataError (StateM σ) α) (nodes : List RelationNode) (w : σ) :
    runFrom (ExceptT.mk (StateT.lift x.run)) nodes w = (((x.run w).1, nodes), (x.run w).2) := rfl

/-! ### Runs that may fail

A run that fails keeps the nodes that it found, so what a run does to the nodes is said of all its
outcomes. -/

/-- Whatever the state, a run from these nodes ends in an outcome and in nodes with a property. -/
def Ends (x : Resolving (StateM σ) α) (nodes : List RelationNode)
    (post : Outcome α → List RelationNode → Prop) : Prop :=
  ∀ w, post (x.runFrom nodes w).1.1 (x.runFrom nodes w).1.2

variable {nodes : List RelationNode}

theorem ends_pure {post : Outcome α → List RelationNode → Prop} {a : α}
    (h : post (.ok a) nodes) : Ends (pure a : Resolving (StateM σ) α) nodes post := by
  intro w
  exact h

theorem ends_throw_bind {post : Outcome β → List RelationNode → Prop} {e : DataError}
    {f : α → Resolving (StateM σ) β} (h : post (.error e) nodes) :
    Ends ((throw e : Resolving (StateM σ) α) >>= f) nodes post := by
  intro w
  rw [runFrom_bind]
  exact h

theorem ends_get_bind {post : Outcome β → List RelationNode → Prop}
    {f : List RelationNode → Resolving (StateM σ) β} (h : Ends (f nodes) nodes post) :
    Ends (get >>= f) nodes post := by
  intro w
  rw [runFrom_bind]
  exact h w

theorem ends_modify_bind {post : Outcome β → List RelationNode → Prop}
    {g : List RelationNode → List RelationNode} {f : PUnit → Resolving (StateM σ) β}
    (h : Ends (f ⟨⟩) (g nodes) post) : Ends (modify g >>= f) nodes post := by
  intro w
  rw [runFrom_bind]
  exact h w

theorem ends_liftExcept_bind {post : Outcome β → List RelationNode → Prop} {x : Outcome α}
    {f : α → Resolving (StateM σ) β} (failed : ∀ e, x = .error e → post (.error e) nodes)
    (next : ∀ a, x = .ok a → Ends (f a) nodes post) : Ends (liftExcept x >>= f) nodes post := by
  intro w
  rw [runFrom_bind]
  cases x with
  | error e => exact failed e rfl
  | ok a => exact next a rfl w

/-- A failure of the first step ends the run; otherwise the second one goes on from its nodes. -/
theorem Ends.bind {x : Resolving (StateM σ) α} {f : α → Resolving (StateM σ) β}
    {middle : Outcome α → List RelationNode → Prop} {post : Outcome β → List RelationNode → Prop}
    (first : Ends x nodes middle)
    (failed : ∀ e ns, middle (.error e) ns → post (.error e) ns)
    (next : ∀ a ns, middle (.ok a) ns → Ends (f a) ns post) : Ends (x >>= f) nodes post := by
  intro w
  have here := first w
  rw [runFrom_bind]
  generalize x.runFrom nodes w = result at here ⊢
  obtain ⟨⟨e | a, ns⟩, v⟩ := result
  · exact failed e ns here
  · exact next a ns here v

theorem Ends.mono {x : Resolving (StateM σ) α} {post post' : Outcome α → List RelationNode → Prop}
    (h : Ends x nodes post) (weaker : ∀ result ns, post result ns → post' result ns) :
    Ends x nodes post' := by
  intro w
  exact weaker _ _ (h w)

theorem Ends.returns {x : Resolving (StateM σ) α} {post : Outcome α → List RelationNode → Prop}
    (h : Ends x nodes post) {a : α} {nodes' : List RelationNode} {w w' : σ}
    (run : Returns x nodes w a nodes' w') : post (.ok a) nodes' := by
  have here := h w
  rw [Returns] at run
  rwa [run] at here

end Resolving

/-! ### One hop -/

namespace RelationNode

/-- A node without its columns and its condition: the table, the edge that joins it, its schema. -/
def edge (n : RelationNode) : String × Relation × Schema := (n.table, n.join, n.schema)

/-- Replacing the first node of a table keeps what the two nodes have in common. -/
theorem map_update {β : Type} (f : RelationNode → β) {hop : String} {n n' : RelationNode}
    {nodes : List RelationNode} (first : nodes.find? (fun k => k.table = hop) = some n)
    (same : f n' = f n) : (update hop (fun _ => n') nodes).map f = nodes.map f := by
  induction nodes with
  | nil => rfl
  | cons k rest ih =>
      rw [update]
      by_cases hk : k.table = hop
      · have found : k = n := by simpa [hk] using first
        rw [if_pos hk, List.map_cons, List.map_cons, same, found]
      · have later : rest.find? (fun k => k.table = hop) = some n := by simpa [hk] using first
        rw [if_neg hk, List.map_cons, List.map_cons, ih later]

/-- Replacing the first node of a table by one on the same edge keeps the edges. -/
theorem map_edge_update {hop : String} {n n' : RelationNode} {nodes : List RelationNode}
    (first : nodes.find? (fun k => k.table = hop) = some n) (same : n'.edge = n.edge) :
    (update hop (fun _ => n') nodes).map edge = nodes.map edge :=
  map_update edge first same

end RelationNode

/-- The end of a path changes nothing but the columns and the condition of its node. -/
theorem Terminal.apply_eq {t : Terminal} {n n' : RelationNode} (h : t.apply n = .ok n') :
    ∃ columns condition, n' = { n with columns, condition } := by
  cases t with
  | field name =>
      rw [apply] at h
      split at h
      · obtain rfl := Except.ok.inj h
        exact ⟨_, n.condition, rfl⟩
      · exact absurd h (by simp)
  | condition c =>
      obtain ⟨value, -, rfl⟩ := Outcome.map_eq_ok.1 h
      exact ⟨n.columns, _, rfl⟩
  | table =>
      obtain rfl := Except.ok.inj h
      have all (columns : List String) (k : RelationNode) : ∃ projected,
          columns.foldl RelationNode.addColumn k = { k with columns := projected } := by
        induction columns generalizing k with
        | nil => exact ⟨k.columns, rfl⟩
        | cons column rest ih => exact ih (k.addColumn column)
      obtain ⟨columns, eq⟩ := all n.schema.columnNames n
      exact ⟨columns, n.condition, eq⟩

theorem Terminal.apply_edge {t : Terminal} {n n' : RelationNode} (h : t.apply n = .ok n') :
    n'.edge = n.edge := by
  obtain ⟨columns, condition, rfl⟩ := apply_eq h
  rfl

namespace SchemaRegistry

open Resolving

variable {σ : Type} {r : SchemaRegistry (StateM σ)}

/-- The node that a hop adds. -/
def newNode (path hop : String) (join : Relation) (schema : Schema) : RelationNode :=
  { table := hop, path, join, schema, columns := none, condition := none }

/-- What a hop comes to: a table that is joined is taken as it is, and any other one needs an edge and
a schema. -/
theorem runFrom_hopNode (r : SchemaRegistry (StateM σ)) (current : Schema) (path hop : String)
    (nodes : List RelationNode) (w : σ) :
    (r.hopNode current path hop).runFrom nodes w =
      match nodes.find? (fun n => n.table = hop) with
      | some n => ((.ok n, nodes), w)
      | none =>
        match current.links.lookup hop with
        | none => ((.error (.unknownRelation hop current.table), nodes), w)
        | some (join, _) =>
          match (r.getSchema hop none).run w with
          | (.error e, v) => ((.error e, nodes), v)
          | (.ok schema, v) =>
            ((.ok (newNode path hop join schema), nodes ++ [newNode path hop join schema]), v) := by
  have read : runFrom get nodes w = ((.ok nodes, nodes), w) := rfl
  rw [hopNode, runFrom_bind, read]
  simp only
  cases nodes.find? (fun n => n.table = hop) with
  | some n => rfl
  | none =>
      simp only
      cases current.links.lookup hop with
      | none => rfl
      | some step =>
          simp only
          rw [runFrom_bind, runFrom_lift]
          rcases (r.getSchema hop none).run w with ⟨_ | _, _⟩ <;> rfl

/-- The node of a hop is there already, or it comes last, along an edge of the current schema. -/
theorem returns_hopNode {current : Schema} {path hop : String} {n : RelationNode}
    {nodes nodes' : List RelationNode} {w w' : σ}
    (h : Returns (r.hopNode current path hop) nodes w n nodes' w') :
    nodes'.find? (fun k => k.table = hop) = some n ∧
      (nodes' = nodes ∨
        hop ∉ nodes.map RelationNode.table ∧ nodes' = nodes ++ [n] ∧ n.table = hop ∧
          (∃ direction, current.links.lookup hop = some (n.join, direction)) ∧
          (r.getSchema hop none).run w = (.ok n.schema, w')) := by
  rw [Returns, runFrom_hopNode] at h
  cases found : nodes.find? (fun k => k.table = hop) with
  | some k =>
      simp only [found, Prod.mk.injEq, Except.ok.injEq] at h
      obtain ⟨⟨rfl, rfl⟩, rfl⟩ := h
      exact ⟨found, .inl rfl⟩
  | none =>
      cases link : current.links.lookup hop with
      | none => simp [found, link] at h
      | some step =>
          obtain ⟨join, direction⟩ := step
          rcases served : (r.getSchema hop none).run w with ⟨e | schema, v⟩
          · simp [found, link, served] at h
          · simp only [found, link, served, Prod.mk.injEq, Except.ok.injEq] at h
            obtain ⟨⟨rfl, rfl⟩, rfl⟩ := h
            refine ⟨?_, .inr ⟨?_, rfl, rfl, ⟨direction, rfl⟩, rfl⟩⟩
            · rw [List.find?_append, found]
              simp [newNode]
            · exact RelationNode.find?_eq_none_iff.1 found

/-- How a hop ends: its table is joined, no relation leads there, its schema is not to be had, or its
node is put behind the others. -/
inductive Hopped (current : Schema) (path hop : String) (nodes : List RelationNode) :
    Outcome RelationNode → List RelationNode → Prop
  | joined {n : RelationNode} (first : nodes.find? (fun k => k.table = hop) = some n) :
      Hopped current path hop nodes (.ok n) nodes
  | undeclared (absent : hop ∉ nodes.map RelationNode.table)
      (unlinked : current.links.lookup hop = none) :
      Hopped current path hop nodes (.error (.unknownRelation hop current.table)) nodes
  | unserved {step : Relation × EdgeDirection} (e : DataError)
      (absent : hop ∉ nodes.map RelationNode.table) (link : current.links.lookup hop = some step) :
      Hopped current path hop nodes (.error e) nodes
  | appended {step : Relation × EdgeDirection} (schema : Schema)
      (absent : hop ∉ nodes.map RelationNode.table) (link : current.links.lookup hop = some step) :
      Hopped current path hop nodes (.ok (newNode path hop step.1 schema))
        (nodes ++ [newNode path hop step.1 schema])

/-- The node of a hop is the first one of its table. -/
theorem Hopped.first {current : Schema} {path hop : String} {nodes ns : List RelationNode}
    {result : Outcome RelationNode} (hopped : Hopped current path hop nodes result ns)
    (n : RelationNode) (taken : result = .ok n) :
    ns.find? (fun k => k.table = hop) = some n := by
  cases hopped with
  | joined first => rw [first, Except.ok.inj taken]
  | undeclared absent unlinked => exact absurd taken (by simp)
  | unserved e absent link => exact absurd taken (by simp)
  | appended schema absent link =>
      rw [← Except.ok.inj taken, List.find?_append, RelationNode.find?_eq_none_iff.2 absent]
      simp [newNode]

theorem ends_hopped (r : SchemaRegistry (StateM σ)) (current : Schema) (path hop : String)
    (nodes : List RelationNode) :
    Ends (r.hopNode current path hop) nodes (Hopped current path hop nodes) := by
  intro w
  rw [runFrom_hopNode]
  cases found : nodes.find? (fun k => k.table = hop) with
  | some n => exact .joined found
  | none =>
      have absent := RelationNode.find?_eq_none_iff.1 found
      cases link : current.links.lookup hop with
      | none => exact .undeclared absent link
      | some step =>
          rcases (r.getSchema hop none).run w with ⟨e | schema, v⟩
          · exact .unserved e absent link
          · exact .appended schema absent link

/-- One hop of a walk: its node, what the end of the path adds to nodes, and the other hops. -/
theorem returns_walk_cons {t : Terminal} {current : Schema} {before hop : String}
    {rest : List String} {u : Unit} {nodes nodes' : List RelationNode} {w w' : σ}
    (h : Returns (r.walk t current before (hop :: rest)) nodes w u nodes' w') :
    ∃ path n ns v ns', Returns (r.hopNode current path hop) nodes w n ns v ∧
      ns'.map RelationNode.edge = ns.map RelationNode.edge ∧
      Returns (r.walk t n.schema path rest) ns' v u nodes' w' := by
  obtain ⟨n, ns, v, hn, h⟩ := returns_bind.1 h
  have first := (returns_hopNode hn).1
  cases rest with
  | cons next rest => exact ⟨_, n, ns, v, ns, hn, rfl, h⟩
  | nil =>
      cases ends : t.apply n with
      | error e =>
          simp only [List.isEmpty_nil, if_true, ends] at h
          obtain ⟨_, _, _, hthrow, -⟩ := returns_bind.1 h
          exact absurd hthrow returns_throw
      | ok n' =>
          simp only [List.isEmpty_nil, if_true, ends] at h
          obtain ⟨_, ns', v', hset, h⟩ := returns_bind.1 h
          obtain ⟨rfl, rfl⟩ := returns_modify.1 hset
          exact ⟨_, n, ns, v, _, hn,
            RelationNode.map_edge_update first (Terminal.apply_edge ends), h⟩

/-! ### Calls -/

end SchemaRegistry

/-- A path that is resolved for a request. -/
inductive ResolverCall
  /-- A field to project. -/
  | field (path : String)
  /-- A condition on a field. -/
  | condition (c : WhereCondition)
  /-- A relation to project in full. -/
  | relation (path : String)
deriving Repr

/-- The tables that a call walks to. -/
def ResolverCall.hops : ResolverCall → List String
  | .field path => (Text.splitOn '.' path).dropLast
  | .condition c => (Text.splitOn '.' c.column).dropLast
  | .relation path => Text.splitOn '.' path

namespace SchemaRegistry

open Resolving

/-- Resolves one path. -/
def resolve {m : Type → Type} [Monad m] (r : SchemaRegistry m) (s : Schema) :
    ResolverCall → Resolving m Unit
  | .field path => r.resolveField s path
  | .condition c => do
    let _ ← r.resolveWhere s c
    return ()
  | .relation path => r.resolveRelation s path

/-- Resolves paths one after another; the first failure ends it. -/
def resolveAll {m : Type → Type} [Monad m] (r : SchemaRegistry m) (s : Schema)
    (calls : List ResolverCall) : Resolving m Unit :=
  calls.forM (r.resolve s)

variable {σ : Type} {r : SchemaRegistry (StateM σ)}

theorem splitTerminal_hops {path terminal : String} {hops : List String}
    (h : splitTerminal path = .ok (hops, terminal)) : hops = (Text.splitOn '.' path).dropLast := by
  unfold splitTerminal at h
  simp only at h
  split at h
  · split at h
    · exact (congrArg Prod.fst (Except.ok.inj h)).symm
    · simp at h
  · simp at h

/-- Each call walks its hops from the base schema. -/
theorem returns_resolve {s : Schema} {call : ResolverCall} {u : Unit}
    {nodes nodes' : List RelationNode} {w w' : σ}
    (h : Returns (r.resolve s call) nodes w u nodes' w') :
    ∃ t, Returns (r.walk t s "" call.hops) nodes w () nodes' w' := by
  cases call with
  | field path =>
      obtain ⟨⟨hops, terminal⟩, ns, v, hsplit, h⟩ := returns_bind.1 h
      obtain ⟨split, rfl, rfl⟩ := returns_liftExcept.1 hsplit
      rw [splitTerminal_hops split] at h
      exact ⟨_, h⟩
  | condition c =>
      obtain ⟨c', ns, v, hc, hunit⟩ := returns_bind.1 h
      obtain ⟨-, rfl, rfl⟩ := returns_pure.1 hunit
      obtain ⟨⟨hops, terminal⟩, ns, v, hsplit, h⟩ := returns_bind.1 hc
      obtain ⟨split, rfl, rfl⟩ := returns_liftExcept.1 hsplit
      rw [splitTerminal_hops split] at h
      obtain ⟨_, ns, v, hwalk, h⟩ := returns_bind.1 h
      obtain ⟨last, ns', v', hget, h⟩ := returns_bind.1 h
      obtain ⟨-, rfl, rfl⟩ := returns_get.1 hget
      obtain ⟨-, rfl, rfl⟩ := returns_pure.1 h
      exact ⟨_, hwalk⟩
  | relation path =>
      unfold resolve resolveRelation at h
      simp only at h
      split at h
      · obtain ⟨_, _, _, hthrow, -⟩ := returns_bind.1 h
        exact absurd hthrow returns_throw
      · exact ⟨_, h⟩

end SchemaRegistry

end DataAccess
