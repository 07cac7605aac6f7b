import DataAccess.Proofs.Query.Resolving
import DataAccess.Proofs.Schema.Registry
import DataAccess.Proofs.Sql.Sources
/-
**When joins are in scope.**  The nodes of a request hold each joined table once, but they do not
hold the base table.  A path that comes back to the base table joins it again, under the name that
it already has; any other path joins a new table to one that was named before.

Main definitions:

* `Schema.ListsOwn`, `SchemaRegistry.ListsOwn` — schemas list only edges of their own table;
* `RelationNode.Connected` — the nodes together with the base table form a chain of joins.

Main results:

* `SchemaRegistry.connected_resolveAll` — paths that stay away from the base table keep the nodes
  connected;
* `SchemaRegistry.hops_mem_resolveAll` — every hop has a node;
* `SchemaRegistry.inScope_iff` — **the joins are in scope exactly when no path comes back to the base
  table**.
-/

set_option autoImplicit false

namespace DataAccess

/-! ### Edges of a schema -/

/-- The schema lists only edges that a table takes part in. -/
def Schema.ListsOwn (s : Schema) (table : String) : Prop :=
  ∀ e ∈ s.relations, e.table = table ∨ e.ownTable = table

/-- The schema that is served for a table lists only edges of that table. -/
def SchemaRegistry.ListsOwn {σ : Type} (r : SchemaRegistry (StateM σ)) : Prop :=
  ∀ table w s w', (r.getSchema table none).run w = (.ok s, w') → s.ListsOwn table

/-- An edge that is found under a name is listed, and the name is one of its ends. -/
theorem Schema.mem_of_lookup {s : Schema} {name : String} {e : Relation}
    {direction : EdgeDirection} (h : s.links.lookup name = some (e, direction)) :
    e ∈ s.relations ∧ (e.table = name ∨ e.ownTable = name) := by
  unfold RelationIndex.lookup at h
  rw [Schema.links, RelationIndex.lookup_forward] at h
  cases found : s.relations.find? (fun e => e.table = name) with
  | some k =>
      rw [found] at h
      simp only [Option.some.injEq, Prod.mk.injEq] at h
      obtain ⟨rfl, -⟩ := h
      exact ⟨List.mem_of_find?_eq_some found, .inl (by simpa using List.find?_some found)⟩
  | none =>
      rw [found] at h
      simp only [RelationIndex.lookup_back] at h
      obtain ⟨k, hk, he⟩ := Option.map_eq_some_iff.1 h
      simp only [Prod.mk.injEq] at he
      obtain ⟨rfl, -⟩ := he
      exact ⟨List.mem_of_find?_eq_some hk, .inr (by simpa using List.find?_some hk)⟩

/-- An edge between a table and another one has just these two ends. -/
theorem Schema.ListsOwn.ends {s : Schema} {table hop : String} {e : Relation}
    {direction : EdgeDirection} (own : s.ListsOwn table) (ne : hop ≠ table)
    (h : s.links.lookup hop = some (e, direction)) :
    [e.ownTable, e.table] = [table, hop] ∨ [e.ownTable, e.table] = [hop, table] := by
  obtain ⟨listed, hop_end⟩ := Schema.mem_of_lookup h
  rcases own e listed with own_end | own_end
  · rcases hop_end with hop_end | hop_end
    · exact absurd (hop_end.symm.trans own_end) ne
    · rw [own_end, hop_end]
      exact .inr rfl
  · rcases hop_end with hop_end | hop_end
    · rw [own_end, hop_end]
      exact .inl rfl
    · exact absurd (hop_end.symm.trans own_end) ne

namespace Statement

theorem tied_append {before : List String} {joined : List (String × List String)}
    {table : String} {condition : List String} (tied : Tied before joined)
    (new : table ∉ before ∧ table ∉ joined.map Prod.fst)
    (ends : ∃ other ∈ before ++ joined.map Prod.fst,
      condition = [other, table] ∨ condition = [table, other]) :
    Tied before (joined ++ [(table, condition)]) := by
  induction joined generalizing before with
  | nil =>
      rw [List.map_nil, List.append_nil] at ends
      exact ⟨new.1, ends, trivial⟩
  | cons first rest ih =>
      obtain ⟨other, hother, shape⟩ := ends
      obtain ⟨absent, edge, tied⟩ := tied
      rw [List.map_cons, List.mem_cons, not_or] at new
      refine ⟨absent, edge, ih tied ⟨?_, new.2.2⟩ ⟨other, ?_, shape⟩⟩
      · rw [List.mem_cons, not_or]
        exact ⟨new.2.1, new.1⟩
      · simp only [List.map_cons, List.mem_append, List.mem_cons] at hother ⊢
        rcases hother with h | h | h
        · exact .inl (.inr h)
        · exact .inl (.inl h)
        · exact .inr h

theorem Tied.nodup {before : List String} {joined : List (String × List String)}
    (tied : Tied before joined) : ∀ table ∈ joined.map Prod.fst, table ∉ before := by
  induction joined generalizing before with
  | nil => exact fun table h => absurd h List.not_mem_nil
  | cons first rest ih =>
      intro table h
      rcases List.mem_cons.1 h with rfl | h
      · exact tied.1
      · exact fun hb => ih tied.2.2 table h (List.mem_cons_of_mem _ hb)

end Statement

namespace RelationNode

/-- Each node is a new table, tied to the base table or to an earlier node, and its schema lists
edges of its table. -/
structure Connected (base : String) (nodes : List RelationNode) : Prop where
  tied : Statement.Tied [base] (nodes.map Statement.joinedSource)
  served : ∀ n ∈ nodes, n.schema.ListsOwn n.table

theorem map_fst_joinedSource (nodes : List RelationNode) :
    (nodes.map Statement.joinedSource).map Prod.fst = nodes.map table := by
  rw [List.map_map]
  rfl

theorem map_table_eq (nodes : List RelationNode) :
    nodes.map table = (nodes.map edge).map Prod.fst := by
  rw [List.map_map]
  rfl

/-- Columns and conditions do not matter for the connection. -/
theorem Connected.congr {base : String} {nodes nodes' : List RelationNode}
    (connected : Connected base nodes) (same : nodes'.map edge = nodes.map edge) :
    Connected base nodes' := by
  have sources (ns : List RelationNode) : ns.map Statement.joinedSource =
      (ns.map edge).map fun (table, join, _) => (table, [join.ownTable, join.table]) := by
    rw [List.map_map]
    rfl
  constructor
  · rw [sources, same, ← sources]
    exact connected.tied
  · intro n hn
    have member : n.edge ∈ nodes.map edge := same ▸ List.mem_map_of_mem hn
    obtain ⟨k, hk, equal⟩ := List.mem_map.1 member
    have own := connected.served k hk
    have tables : k.table = n.table := congrArg Prod.fst equal
    have schemas : k.schema = n.schema := congrArg (fun e => e.2.2) equal
    rwa [tables, schemas] at own

end RelationNode

namespace SchemaRegistry

open Resolving RelationNode

variable {σ : Type} {r : SchemaRegistry (StateM σ)}

/-! ### One hop -/

/-- A hop to another table than the base keeps the nodes connected. -/
theorem connected_hopNode (own : r.ListsOwn) {base name : String} {current : Schema}
    {path hop : String} {n : RelationNode} {nodes nodes' : List RelationNode} {w w' : σ}
    (connected : Connected base nodes) (current_own : current.ListsOwn name)
    (known : name = base ∨ name ∈ nodes.map table) (away : hop ≠ base)
    (h : Returns (r.hopNode current path hop) nodes w n nodes' w') :
    Connected base nodes' ∧ n ∈ nodes' ∧ n.table = hop := by
  obtain ⟨found, step⟩ := returns_hopNode h
  obtain ⟨member, table_eq⟩ := mem_of_find? found
  refine ⟨?_, member, table_eq⟩
  rcases step with rfl | ⟨absent, rfl, -, ⟨direction, link⟩, served⟩
  · exact connected
  -- a new node hangs on the table that the walk comes from, which is there already
  · have ne : hop ≠ name := by
      rintro rfl
      rcases known with known | known
      · exact away known
      · exact absent known
    constructor
    · rw [List.map_append]
      refine Statement.tied_append connected.tied ⟨?_, ?_⟩ ⟨name, ?_, ?_⟩
      · rw [table_eq]
        simpa using away
      · rw [map_fst_joinedSource, table_eq]
        exact absent
      · rw [map_fst_joinedSource]
        rcases known with rfl | known
        · simp
        · exact List.mem_append_right _ known
      · rw [table_eq]
        exact current_own.ends ne link
    · intro k hk
      rcases List.mem_append.1 hk with hk | hk
      · exact connected.served k hk
      · rw [List.mem_singleton.1 hk, table_eq]
        exact own hop w n.schema w' served

/-- The tables of the nodes after a hop: those before, and the hop. -/
theorem tables_hopNode {current : Schema} {path hop : String} {n : RelationNode}
    {nodes nodes' : List RelationNode} {w w' : σ}
    (h : Returns (r.hopNode current path hop) nodes w n nodes' w') :
    hop ∈ nodes'.map table ∧ ∀ name ∈ nodes.map table, name ∈ nodes'.map table := by
  obtain ⟨found, step⟩ := returns_hopNode h
  obtain ⟨member, table_eq⟩ := mem_of_find? found
  refine ⟨?_, fun name hname => ?_⟩
  · rw [← table_eq]
    exact List.mem_map_of_mem member
  · rcases step with rfl | ⟨-, rfl, -⟩
    · exact hname
    · rw [List.map_append]
      exact List.mem_append_left _ hname

/-! ### Walks and calls -/

theorem connected_walk (own : r.ListsOwn) {base name : String} {t : Terminal} {current : Schema}
    {before : String} {hops : List String} {nodes nodes' : List RelationNode} {w w' : σ}
    (connected : Connected base nodes) (current_own : current.ListsOwn name)
    (known : name = base ∨ name ∈ nodes.map table) (away : base ∉ hops)
    (h : Returns (r.walk t current before hops) nodes w () nodes' w') : Connected base nodes' := by
  induction hops generalizing current before name nodes w with
  | nil =>
      obtain ⟨-, rfl, rfl⟩ := returns_pure.1 h
      exact connected
  | cons hop rest ih =>
      obtain ⟨path, n, ns, v, ns', hn, same, h⟩ := returns_walk_cons h
      rw [List.mem_cons, not_or] at away
      obtain ⟨connected', member, table_eq⟩ :=
        connected_hopNode own connected current_own known (fun e => away.1 e.symm) hn
      have tables : ns'.map table = ns.map table := by rw [map_table_eq, same, ← map_table_eq]
      refine ih (connected'.congr same) (connected'.served n member) (.inr ?_) away.2 h
      rw [tables]
      exact List.mem_map_of_mem member

/-- Every hop of a walk has a node afterwards, and no node is lost. -/
theorem tables_walk {t : Terminal} {current : Schema} {before : String} {hops : List String}
    {nodes nodes' : List RelationNode} {w w' : σ}
    (h : Returns (r.walk t current before hops) nodes w () nodes' w') :
    (∀ hop ∈ hops, hop ∈ nodes'.map table) ∧
      ∀ name ∈ nodes.map table, name ∈ nodes'.map table := by
  induction hops generalizing current before nodes w with
  | nil =>
      obtain ⟨-, rfl, rfl⟩ := returns_pure.1 h
      exact ⟨fun hop hh => absurd hh List.not_mem_nil, fun name hn => hn⟩
  | cons hop rest ih =>
      obtain ⟨path, n, ns, v, ns', hn, same, h⟩ := returns_walk_cons h
      obtain ⟨here, kept⟩ := tables_hopNode hn
      obtain ⟨later, kept'⟩ := ih h
      have tables : ns'.map table = ns.map table := by rw [map_table_eq, same, ← map_table_eq]
      rw [tables] at kept'
      refine ⟨fun name hname => ?_, fun name hname => kept' name (kept name hname)⟩
      rcases List.mem_cons.1 hname with rfl | hname
      · exact kept' _ here
      · exact later name hname

theorem connected_resolveAll (own : r.ListsOwn) {base : Schema} (base_own : base.ListsOwn base.table)
    {calls : List ResolverCall} {nodes nodes' : List RelationNode} {w w' : σ}
    (connected : Connected base.table nodes) (away : ∀ call ∈ calls, base.table ∉ call.hops)
    (h : Returns (r.resolveAll base calls) nodes w () nodes' w') :
    Connected base.table nodes' := by
  induction calls generalizing nodes w with
  | nil =>
      obtain ⟨-, rfl, rfl⟩ := returns_pure.1 h
      exact connected
  | cons call rest ih =>
      obtain ⟨_, ns, v, hcall, h⟩ := returns_bind.1 h
      obtain ⟨t, hwalk⟩ := returns_resolve hcall
      have first := away call List.mem_cons_self
      have others := fun c hc => away c (List.mem_cons_of_mem _ hc)
      exact ih (connected_walk own connected base_own (.inl rfl) first hwalk) others h

theorem hops_mem_resolveAll {base : Schema} {calls : List ResolverCall}
    {nodes nodes' : List RelationNode} {w w' : σ}
    (h : Returns (r.resolveAll base calls) nodes w () nodes' w') :
    (∀ call ∈ calls, ∀ hop ∈ call.hops, hop ∈ nodes'.map table) ∧
      ∀ name ∈ nodes.map table, name ∈ nodes'.map table := by
  induction calls generalizing nodes w with
  | nil =>
      obtain ⟨-, rfl, rfl⟩ := returns_pure.1 h
      exact ⟨fun call hc => absurd hc List.not_mem_nil, fun name hn => hn⟩
  | cons call rest ih =>
      obtain ⟨_, ns, v, hcall, h⟩ := returns_bind.1 h
      obtain ⟨t, hwalk⟩ := returns_resolve hcall
      obtain ⟨here, kept⟩ := tables_walk hwalk
      obtain ⟨later, kept'⟩ := ih h
      refine ⟨fun c hc hop hhop => ?_, fun name hname => kept' name (kept name hname)⟩
      rcases List.mem_cons.1 hc with rfl | hc
      · exact kept' hop (here hop hhop)
      · exact later c hc hop hhop

/-! ### The statements of a request -/

/-- A statement that joins its base table again is not in scope. -/
theorem not_inScope_of_mem {st : Statement} {base : String} {nodes : List RelationNode}
    (sources : st.sources = (base, []) :: nodes.map Statement.joinedSource)
    (again : base ∈ nodes.map table) : ¬ st.InScope := by
  rw [Statement.inScope_iff_tied sources]
  intro tied
  rw [← map_fst_joinedSource] at again
  exact tied.nodup base again List.mem_cons_self

/-- The joins of the nodes are in scope exactly when no path came back to the base table. -/
theorem tied_iff (own : r.ListsOwn) {base : Schema} (base_own : base.ListsOwn base.table)
    {calls : List ResolverCall} {nodes : List RelationNode} {w w' : σ}
    (h : Returns (r.resolveAll base calls) [] w () nodes w') :
    Statement.Tied [base.table] (nodes.map Statement.joinedSource) ↔
      ∀ call ∈ calls, base.table ∉ call.hops := by
  constructor
  · intro tied call hc hop
    have member := (hops_mem_resolveAll h).1 call hc base.table hop
    rw [← map_fst_joinedSource] at member
    exact tied.nodup base.table member List.mem_cons_self
  · intro away
    have start : Connected base.table [] :=
      ⟨trivial, fun n hn => absurd hn List.not_mem_nil⟩
    exact (connected_resolveAll own base_own start away h).tied

/-- **The joins of a request are in scope exactly when no path comes back to the base table.** -/
theorem inScope_iff (own : r.ListsOwn) {base : Schema} (base_own : base.ListsOwn base.table)
    {calls : List ResolverCall} {nodes : List RelationNode} {w w' : σ}
    (h : Returns (r.resolveAll base calls) [] w () nodes w') :
    (∀ fields cs sort window st, Statement.select base fields nodes cs sort window = .ok st →
      (st.InScope ↔ ∀ call ∈ calls, base.table ∉ call.hops)) ∧
    (∀ cs st, Statement.count base nodes cs = .ok st →
      (st.InScope ↔ ∀ call ∈ calls, base.table ∉ call.hops)) := by
  have scope {st : Statement}
      (sources : st.sources = (base.table, []) :: nodes.map Statement.joinedSource) :
      st.InScope ↔ ∀ call ∈ calls, base.table ∉ call.hops := by
    rw [← tied_iff own base_own h]
    exact Statement.inScope_iff_tied sources
  exact ⟨fun _ _ _ _ _ hst => scope (Statement.sources_select hst),
    fun _ _ hst => scope (Statement.sources_count hst)⟩

/-! ### A path that comes back -/

/-- A registry over a set of schemas that remembers nothing. -/
def uncached (set : SchemaSet) : SchemaRegistry (StateM Unit) :=
  .plain (set.source (StateM Unit)) ⟨fun _ => pure none, fun _ _ _ => pure ()⟩

/-- Without a cache every schema comes from the set. -/
theorem find_of_uncached {set : SchemaSet} {table : String} {s : Schema} {w w' : Unit}
    (run : Action.runFrom ((uncached set).getSchema table none) w = (.ok s, w')) :
    set.find table = .ok s := by
  by_cases named : table = ""
  · subst named
    rw [runFrom_getSchema_nameless] at run
    exact absurd (congrArg Prod.fst run) (by simp)
  · have empty : (uncached set).cache.get (cacheKey table) w = (none, w) := rfl
    have asked : Action.runFrom ((uncached set).source.introspect table) w =
        (set.find table, w) := rfl
    have unaided (e : DataError) : (uncached set).standIn table e = .error e := rfl
    rw [runFrom_getSchema _ named, empty] at run
    change Action.runFrom ((uncached set).load table) w = _ at run
    rw [runFrom_load, asked] at run
    cases found : set.find table with
    | error e =>
        simp only [found, unaided] at run
        exact absurd (congrArg Prod.fst run) (by simp)
    | ok k =>
        simp only [found] at run
        split at run
        · rw [unaided] at run
          exact absurd (congrArg Prod.fst run) (by simp)
        · exact congrArg Prod.fst run

/-- The people of a department. -/
def people : Schema :=
  .ofColumns "users" [.serverKey "id", .plain "department_id" .number]
    [⟨"department", "id", "users", "department_id"⟩]

/-- A department, which lists the edge of its people as well. -/
def department : Schema :=
  .ofColumns "department" [.serverKey "id", .plain "name" .string]
    [⟨"department", "id", "users", "department_id"⟩]

/-- A registry of people and departments. -/
def offices : SchemaRegistry (StateM Unit) :=
  uncached [("users", people), ("department", department)]

theorem listsOwn_people : people.ListsOwn "users" := by
  intro e he
  rw [List.mem_singleton.1 he]
  exact .inr rfl

theorem listsOwn_department : department.ListsOwn "department" := by
  intro e he
  rw [List.mem_singleton.1 he]
  exact .inl rfl

theorem listsOwn_offices : offices.ListsOwn := by
  intro table w s w' run
  have found := find_of_uncached run
  simp only [SchemaSet.find, Keyed.get?_cons, Keyed.get?_nil] at found
  split at found
  · next k hk =>
    obtain rfl := Except.ok.inj found
    by_cases first : "users" = table
    · rw [if_pos first] at hk
      rw [← Option.some.inj hk, ← first]
      exact listsOwn_people
    · rw [if_neg first] at hk
      by_cases second : "department" = table
      · rw [if_pos second] at hk
        rw [← Option.some.inj hk, ← second]
        exact listsOwn_department
      · rw [if_neg second] at hk
        exact absurd hk (by simp)
  · exact absurd found (by simp)

/-- The joins of people along one path. -/
def follow (path : String) : Resolving (StateM Unit) Unit :=
  offices.resolveAll people [.field path]

/-- A read without conditions is always compiled. -/
theorem exists_select (nodes : List RelationNode) :
    ∃ st, Statement.select people none nodes [] [] none = .ok st := ⟨_, rfl⟩

/-- From people to their department and back, the people are joined to themselves. -/
theorem select_coming_back : ∃ nodes w st,
    Returns (follow "department.users.id") [] () () nodes w ∧
      Statement.select people none nodes [] [] none = .ok st ∧
      st.sources.map Prod.fst = ["users", "department", "users"] ∧ ¬ st.InScope := by
  have run : Returns (follow "department.users.id") [] () () _ _ :=
    returns_of_isOk (by decide +kernel)
  obtain ⟨st, hst⟩ := exists_select ((follow "department.users.id").runFrom [] ()).1.2
  have sources := Statement.sources_select hst
  refine ⟨_, _, st, run, hst, ?_, not_inScope_of_mem sources (by decide +kernel)⟩
  rw [sources, List.map_cons, map_fst_joinedSource]
  decide +kernel

theorem inScope_along_department : ∃ nodes w st,
    Returns (follow "department.id") [] () () nodes w ∧
      Statement.select people none nodes [] [] none = .ok st ∧ st.InScope := by
  have run : Returns (follow "department.id") [] () () _ _ :=
    returns_of_isOk (by decide +kernel)
  obtain ⟨st, hst⟩ := exists_select ((follow "department.id").runFrom [] ()).1.2
  have scope := (inScope_iff listsOwn_offices listsOwn_people run).1 none [] [] none st hst
  exact ⟨_, _, st, run, hst, scope.2 (by decide +kernel)⟩

end SchemaRegistry

end DataAccess
