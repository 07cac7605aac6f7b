import Mathlib.Data.List.Nodup
import DataAccess.Proofs.Query.Joins
import DataAccess.Proofs.Text.Cutting
/-
**One node a table.**  The nodes of a request are filled by many paths, and a path that is refused
may leave some of its hops behind.  Whatever paths were followed, and whichever of them failed, there
is one node a table; it keeps the path that it was first reached by, projects columns of its own
schema, and filters by a condition that ends at it.

Main definitions:

* `RelationNode.Sound`, `RelationNode.Merged` — a node, and all of them together;
* `RelationNode.Kept` — nodes that are still there, on the same edges and in their places;
* `RelationNode.Addresses` — the one node that a path leads to;
* `Terminal.Fits`, `Terminal.Applied` — the end of a path at its last hop, before and after;
* `SchemaRegistry.resolveEach` — paths one after another, whether they are refused or not.

Main results:

* `RelationNode.Merged.addresses` — a path to a joined table finds its node;
* `RelationNode.Merged.find?_path` — a look-up by the path alone finds this node or none;
* `SchemaRegistry.ends_walk` — what a walk leaves, refused or not;
* `SchemaRegistry.resolveEach_merged` — **after any paths the nodes are merged, and every path that
  was followed finds its node**.
-/

set_option autoImplicit false

namespace DataAccess

theorem mem_addNew {names : List String} {name other : String} (h : other ∈ addNew names name) :
    other ∈ names ∨ other = name := by
  rw [addNew] at h
  split at h
  · exact .inl h
  · simpa using h

/-! ### Nodes -/

namespace RelationNode

/-- A node that fits its own table: its path ends there, its columns are distinct columns of its
schema, and its condition is one on its table. -/
structure Sound (n : RelationNode) : Prop where
  lastHop_path : lastHop n.path = n.table
  distinct : (n.columns.getD []).Nodup
  known : ∀ field ∈ n.columns.getD [], n.schema.hasColumn field = true
  filtered : ∀ c, n.condition = some c →
    ∃ path field, c.path? = some (path, field) ∧ lastHop path = n.table

/-- The nodes of a request: each table and each path once. -/
structure Merged (nodes : List RelationNode) : Prop where
  tables : (nodes.map table).Nodup
  paths : (nodes.map path).Nodup
  sound : ∀ n ∈ nodes, n.Sound

/-- Nodes are still there, on the same edges and in their places. -/
def Kept (nodes nodes' : List RelationNode) : Prop := nodes.map edge <+: nodes'.map edge

/-- A path finds a node, the only one of the table that the path leads to. -/
structure Addresses (nodes : List RelationNode) (path : String) (n : RelationNode) : Prop where
  found : find nodes path = some n
  member : n ∈ nodes
  table_eq : n.table = lastHop path
  unique : ∀ k ∈ nodes, k.table = lastHop path → k = n

theorem Kept.refl (nodes : List RelationNode) : Kept nodes nodes := List.prefix_refl _

theorem Kept.trans {a b c : List RelationNode} (first : Kept a b) (second : Kept b c) : Kept a c :=
  List.IsPrefix.trans first second

/-- A node that was there is still there, apart from its columns and its condition. -/
theorem Kept.exists_mem {nodes nodes' : List RelationNode} (kept : Kept nodes nodes')
    {n : RelationNode} (member : n ∈ nodes) : ∃ n' ∈ nodes', n'.edge = n.edge := by
  have there : n.edge ∈ nodes'.map edge := kept.subset (List.mem_map_of_mem member)
  exact List.mem_map.1 there

theorem Kept.tables {nodes nodes' : List RelationNode} (kept : Kept nodes nodes') {name : String}
    (member : name ∈ nodes.map table) : name ∈ nodes'.map table := by
  rw [map_table_eq] at member ⊢
  exact (kept.map Prod.fst).subset member

/-- A path ends with the hop that was put behind it last. -/
theorem lastHop_step {hop : String} (plain : '.' ∉ hop.toList) (before : String) :
    lastHop (if before = "" then hop else before ++ "." ++ hop) = hop := by
  rw [lastHop]
  split
  · rw [Text.splitOn_of_not_mem plain]
    rfl
  · rw [Text.splitOn_dotted, Text.splitOn_of_not_mem plain, List.getLast?_concat]
    rfl

theorem lastHop_eq {path hop : String} (h : (Text.splitOn '.' path).getLast? = some hop) :
    lastHop path = hop := by
  rw [lastHop, h]
  rfl

/-- Where the paths end at their tables, one node a table is one node a path. -/
theorem merged_of_tables {nodes : List RelationNode} (tables : (nodes.map table).Nodup)
    (sound : ∀ n ∈ nodes, n.Sound) : Merged nodes := by
  refine ⟨tables, List.Nodup.of_map lastHop ?_, sound⟩
  have ends : (nodes.map path).map lastHop = nodes.map table := by
    rw [List.map_map]
    exact List.map_congr_left fun n member => (sound n member).lastHop_path
  rwa [ends]

theorem merged_nil : Merged [] := by
  refine merged_of_tables List.nodup_nil ?_
  intro n member
  exact absurd member List.not_mem_nil

/-- A node of a new table goes last. -/
theorem Merged.append {nodes : List RelationNode} (merged : Merged nodes) {n : RelationNode}
    (new : n.table ∉ nodes.map table) (sound : n.Sound) : Merged (nodes ++ [n]) := by
  refine merged_of_tables ?_ ?_
  · rw [List.map_append, List.map_singleton, List.nodup_append]
    refine ⟨merged.tables, List.nodup_singleton _, ?_⟩
    intro a ha b hb same
    rw [List.mem_singleton.1 hb] at same
    exact new (same ▸ ha)
  · intro k member
    rcases List.mem_append.1 member with member | member
    · exact merged.sound k member
    · rw [List.mem_singleton.1 member]
      exact sound

theorem mem_update {hop : String} {n k : RelationNode} {nodes : List RelationNode}
    (h : k ∈ update hop (fun _ => n) nodes) : k = n ∨ k ∈ nodes := by
  induction nodes with
  | nil => exact absurd h List.not_mem_nil
  | cons first rest ih =>
      rw [update] at h
      split at h
      · rcases List.mem_cons.1 h with rfl | h
        · exact .inl rfl
        · exact .inr (List.mem_cons_of_mem _ h)
      · rcases List.mem_cons.1 h with rfl | h
        · exact .inr List.mem_cons_self
        · exact (ih h).imp_right (List.mem_cons_of_mem _)

theorem mem_update_self {hop : String} {n : RelationNode} {nodes : List RelationNode}
    (there : hop ∈ nodes.map table) : n ∈ update hop (fun _ => n) nodes := by
  induction nodes with
  | nil => exact absurd there List.not_mem_nil
  | cons first rest ih =>
      rw [update]
      split
      · exact List.mem_cons_self
      · next other =>
        rcases List.mem_cons.1 there with same | there
        · exact absurd same.symm other
        · exact List.mem_cons_of_mem _ (ih there)

/-- A node may give way to one on the same edge. -/
theorem Merged.update {nodes : List RelationNode} (merged : Merged nodes) {hop : String}
    {n n' : RelationNode} (first : nodes.find? (fun k => k.table = hop) = some n)
    (same : n'.edge = n.edge) (sound : n'.Sound) : Merged (update hop (fun _ => n') nodes) := by
  refine merged_of_tables ?_ ?_
  · rw [map_table_eq, map_edge_update first same, ← map_table_eq]
    exact merged.tables
  · intro k member
    rcases mem_update member with rfl | member
    · exact sound
    · exact merged.sound k member

/-- Of merged nodes, a table has one. -/
theorem Merged.eq_of_table {nodes : List RelationNode} (merged : Merged nodes)
    {n k : RelationNode} (hn : n ∈ nodes) (hk : k ∈ nodes) (same : n.table = k.table) : n = k :=
  List.inj_on_of_nodup_map merged.tables hn hk same

/-- The last node of a table is the only one. -/
theorem Merged.find?_reverse {nodes : List RelationNode} (merged : Merged nodes)
    {n : RelationNode} (member : n ∈ nodes) :
    nodes.reverse.find? (fun k => some n.table = some k.table) = some n := by
  cases found : nodes.reverse.find? (fun k => some n.table = some k.table) with
  | none =>
      have absent := List.find?_eq_none.1 found n (List.mem_reverse.2 member)
      exact absurd absent (by simp)
  | some k =>
      have same : n.table = k.table := by simpa using List.find?_some found
      have there : k ∈ nodes := List.mem_reverse.1 (List.mem_of_find?_eq_some found)
      rw [merged.eq_of_table member there same]

/-- A path to a table that is joined finds its node. -/
theorem Merged.addresses {nodes : List RelationNode} (merged : Merged nodes) {path : String}
    (joined : lastHop path ∈ nodes.map table) : ∃ n, Addresses nodes path n := by
  -- whether it is found by its path or by its table, it is the node of that table
  obtain ⟨n, found, member, table_eq⟩ :
      ∃ n, find nodes path = some n ∧ n ∈ nodes ∧ n.table = lastHop path := by
    rw [find]
    cases reached : nodes.find? (fun n => n.path = path) with
    | some n =>
        obtain ⟨member, path_eq⟩ := mem_of_find? reached
        refine ⟨n, rfl, member, ?_⟩
        rw [← path_eq]
        exact ((merged.sound n member).lastHop_path).symm
    | none =>
        cases named : nodes.find? (fun n => n.table = lastHop path) with
        | none => exact absurd joined (find?_eq_none_iff.1 named)
        | some n => exact ⟨n, rfl, mem_of_find? named⟩
  refine ⟨n, found, member, table_eq, ?_⟩
  intro k hk same
  exact merged.eq_of_table hk member (same.trans table_eq.symm)

/-- No other node than the one that a path finds can have that path. -/
theorem Addresses.eq_of_path {nodes : List RelationNode} {n k : RelationNode}
    (addresses : Addresses nodes k.path n) (merged : Merged nodes) (there : k ∈ nodes) : k = n :=
  addresses.unique k there (merged.sound k there).lastHop_path.symm

/-- A look-up by the path alone finds this node or none. -/
theorem Merged.find?_path {nodes : List RelationNode} (merged : Merged nodes) {path : String}
    {n : RelationNode} (addresses : Addresses nodes path n) :
    nodes.find? (fun k => k.path = path) = if n.path = path then some n else none := by
  cases found : nodes.find? (fun k => k.path = path) with
  | none =>
      have other : n.path ≠ path := by
        rintro rfl
        exact find?_eq_none_iff.1 found (List.mem_map_of_mem addresses.member)
      rw [if_neg other]
  | some k =>
      obtain ⟨there, rfl⟩ := mem_of_find? found
      rw [← addresses.eq_of_path merged there, if_pos rfl]

/-! ### The end of a path -/

theorem Sound.addColumn {n : RelationNode} (sound : n.Sound) {column : String}
    (known : n.schema.hasColumn column = true) : (n.addColumn column).Sound := by
  refine ⟨sound.lastHop_path, addColumn_nodup sound.distinct column, ?_, sound.filtered⟩
  intro field member
  rcases mem_addNew member with member | rfl
  · exact sound.known field member
  · exact known

end RelationNode

open RelationNode

/-- The end of a path fits its last hop: a condition is one on that table. -/
def Terminal.Fits (t : Terminal) (last : String) : Prop :=
  ∀ c, t = .condition c → ∃ path field, c.path? = some (path, field) ∧ lastHop path = last

/-- The end of a path was applied to the node of its last hop. -/
def Terminal.Applied (t : Terminal) (last : String) (nodes : List RelationNode) : Prop :=
  ∃ n ∈ nodes, n.table = last ∧ ∃ before : RelationNode, before.edge = n.edge ∧
    t.apply before = .ok n

theorem Terminal.apply_sound {t : Terminal} {n n' : RelationNode} (fits : t.Fits n.table)
    (sound : n.Sound) (h : t.apply n = .ok n') : n'.Sound := by
  cases t with
  | field name =>
      rw [apply] at h
      split at h
      · next known =>
        rw [← Except.ok.inj h]
        exact sound.addColumn known
      · exact absurd h (by simp)
  | condition c =>
      obtain ⟨value, -, rfl⟩ := Outcome.map_eq_ok.1 h
      refine ⟨sound.lastHop_path, sound.distinct, sound.known, ?_⟩
      intro c' same
      obtain rfl := Option.some.inj same
      exact fits c rfl
  | table =>
      rw [← Except.ok.inj h]
      have all (columns : List String) (k : RelationNode) (sound : k.Sound)
          (known : ∀ column ∈ columns, k.schema.hasColumn column = true) :
          (columns.foldl RelationNode.addColumn k).Sound := by
        induction columns generalizing k with
        | nil => exact sound
        | cons column rest ih =>
            refine ih (k.addColumn column) (sound.addColumn (known column List.mem_cons_self)) ?_
            intro other member
            exact known other (List.mem_cons_of_mem _ member)
      refine all n.schema.columnNames n sound ?_
      intro column member
      exact Schema.hasColumn_iff.2 member

/-- The end of a path is applied to the node of its last hop, and to no other. -/
theorem Terminal.apply_update {t : Terminal} {hop : String} {n n' : RelationNode}
    {nodes : List RelationNode} (merged : Merged nodes)
    (first : nodes.find? (fun k => k.table = hop) = some n) (fits : t.Fits hop)
    (applied : t.apply n = .ok n') :
    Merged (RelationNode.update hop (fun _ => n') nodes) ∧
      Kept nodes (RelationNode.update hop (fun _ => n') nodes) ∧
      t.Applied hop (RelationNode.update hop (fun _ => n') nodes) := by
  obtain ⟨member, rfl⟩ := mem_of_find? first
  have edge := apply_edge applied
  have sound : n'.Sound := apply_sound fits (merged.sound n member) applied
  refine ⟨merged.update first edge sound, ?_, n', ?_, congrArg Prod.fst edge, n, edge.symm, applied⟩
  · have same := map_edge_update first edge
    exact ⟨[], by rw [List.append_nil, same]⟩
  · exact mem_update_self (List.mem_map_of_mem member)

namespace SchemaRegistry

open Resolving

variable {σ : Type} (r : SchemaRegistry (StateM σ))

/-! ### One hop and a walk -/

/-- What a hop leaves: nothing changes if it is refused, and its node is there if it is taken. -/
theorem ends_hopNode {path hop : String} (ends : lastHop path = hop) (current : Schema)
    {nodes : List RelationNode} (merged : Merged nodes) :
    Ends (r.hopNode current path hop) nodes fun result ns =>
      Merged ns ∧ Kept nodes ns ∧
        ∀ n, result = .ok n → ns.find? (fun k => k.table = hop) = some n := by
  refine (r.ends_hopped current path hop nodes).mono ?_
  intro result ns hopped
  have first := hopped.first
  cases hopped with
  | joined found => exact ⟨merged, .refl nodes, first⟩
  | undeclared absent unlinked => exact ⟨merged, .refl nodes, first⟩
  | unserved e absent link => exact ⟨merged, .refl nodes, first⟩
  | @appended step schema absent link =>
      have sound : (newNode path hop step.1 schema).Sound :=
        ⟨ends, List.nodup_nil, by simp [newNode], by simp [newNode]⟩
      refine ⟨merged.append absent sound, ?_, first⟩
      rw [Kept, List.map_append]
      exact List.prefix_append _ _

/-- What a walk leaves, refused or not: the nodes stay merged and none is lost.  A walk that is not
refused leaves a node for each hop and applies its end to the last one. -/
theorem ends_walk {t : Terminal} {hops : List String} (plain : ∀ hop ∈ hops, '.' ∉ hop.toList)
    (fits : ∀ last, hops.getLast? = some last → t.Fits last) (current : Schema) (before : String)
    {nodes : List RelationNode} (merged : Merged nodes) :
    Ends (r.walk t current before hops) nodes fun result ns =>
      Merged ns ∧ Kept nodes ns ∧ (result = .ok () →
        ∀ last, hops.getLast? = some last → t.Applied last ns) := by
  induction hops generalizing current before nodes with
  | nil =>
      refine ends_pure ⟨merged, .refl nodes, ?_⟩
      intro _ last h
      exact absurd h (by simp)
  | cons hop rest ih =>
      rw [walk]
      generalize same : (if before = "" then hop else before ++ "." ++ hop) = path
      have ends : lastHop path = hop := by
        rw [← same]
        exact lastHop_step (plain hop List.mem_cons_self) before
      refine (r.ends_hopNode ends current merged).bind ?_ ?_
      · rintro e ns ⟨merged', kept, -⟩
        exact ⟨merged', kept, by simp⟩
      · rintro n ns ⟨merged', kept, node⟩
        cases rest with
        | cons next others =>
            have later : ∀ h ∈ next :: others, '.' ∉ h.toList := by
              intro h hh
              exact plain h (List.mem_cons_of_mem _ hh)
            refine (ih later fits n.schema path merged').mono ?_
            rintro result ns' ⟨merged'', kept', applied⟩
            exact ⟨merged'', kept.trans kept', applied⟩
        | nil =>
            simp only [List.isEmpty_nil, if_true]
            cases applied : t.apply n with
            | error e => exact ends_throw_bind ⟨merged', kept, by simp⟩
            | ok n' =>
                obtain ⟨merged'', kept', there⟩ :=
                  Terminal.apply_update merged' (node n rfl) (fits hop rfl) applied
                refine ends_modify_bind (ends_pure ⟨merged'', kept.trans kept', ?_⟩)
                intro _ last h
                obtain rfl : hop = last := Option.some.inj h
                exact there

/-! ### Paths -/

/-- A dotted name is cut at its last dot into the path that is walked and the end of it. -/
theorem splitTerminal_eq_ok {name terminal : String} {hops : List String}
    (h : splitTerminal name = .ok (hops, terminal)) :
    ∃ path, Text.cutLast '.' name = some (path, terminal) ∧ hops = Text.splitOn '.' path := by
  rw [splitTerminal] at h
  cases last : (Text.splitOn '.' name).getLast? with
  | none =>
      rw [last] at h
      exact absurd h (by simp)
  | some segment =>
      simp only [last] at h
      split at h
      · next dotted =>
        simp only [Except.ok.injEq, Prod.mk.injEq] at h
        obtain ⟨rfl, rfl⟩ := h
        cases cut : Text.cutLast '.' name with
        | none =>
            -- an uncut name is a single segment
            have single := Text.splitOn_of_not_mem (Text.cutLast_eq_none_iff.1 cut)
            rw [single] at dotted
            exact absurd dotted.1 (by simp)
        | some pieces =>
            obtain ⟨path, after⟩ := pieces
            have split := Text.splitOn_of_cutLast cut
            rw [split, List.getLast?_concat, Option.some.injEq] at last
            refine ⟨path, by rw [last], ?_⟩
            rw [split, List.dropLast_concat]
      · exact absurd h (by simp)

/-- The last segment of a path is the hop that a walk along it ends at. -/
theorem getLast?_splitOn (path : String) :
    (Text.splitOn '.' path).getLast? = some (lastHop path) := by
  cases last : (Text.splitOn '.' path).getLast? with
  | none => exact absurd (List.getLast?_eq_none_iff.1 last) (Text.splitOn_ne_nil '.' path)
  | some hop => rw [lastHop_eq last]

/-- What a walk along a path leaves, refused or not. -/
theorem ends_walkPath {t : Terminal} {path : String} (fits : t.Fits (lastHop path)) (s : Schema)
    {nodes : List RelationNode} (merged : Merged nodes) :
    Ends (r.walk t s "" (Text.splitOn '.' path)) nodes fun result ns =>
      Merged ns ∧ Kept nodes ns ∧ (result = .ok () → t.Applied (lastHop path) ns) := by
  have plain : ∀ hop ∈ Text.splitOn '.' path, '.' ∉ hop.toList := by
    intro hop member
    exact Text.mem_splitOn member
  refine (r.ends_walk plain ?_ s "" merged).mono ?_
  · intro last h
    rw [getLast?_splitOn, Option.some.injEq] at h
    rwa [← h]
  · rintro result ns ⟨merged', kept, applied⟩
    refine ⟨merged', kept, ?_⟩
    intro succeeded
    exact applied succeeded _ (getLast?_splitOn path)

theorem fits_field (name last : String) : (Terminal.field name).Fits last := by
  intro c h
  exact absurd h (by simp)

theorem fits_table (last : String) : Terminal.table.Fits last := by
  intro c h
  exact absurd h (by simp)

theorem fits_condition {c : WhereCondition} {path field : String}
    (cut : c.path? = some (path, field)) : (Terminal.condition c).Fits (lastHop path) := by
  intro c' h
  obtain rfl := Terminal.condition.inj h
  exact ⟨path, field, cut, rfl⟩

/-- A field that is resolved is projected from the node of its path. -/
theorem ends_resolveField (s : Schema) (field : String) {nodes : List RelationNode}
    (merged : Merged nodes) :
    Ends (r.resolveField s field) nodes fun result ns =>
      Merged ns ∧ Kept nodes ns ∧ (result = .ok () → ∃ path name,
        Text.cutLast '.' field = some (path, name) ∧
          (Terminal.field name).Applied (lastHop path) ns) := by
  refine ends_liftExcept_bind ?_ ?_
  · intro e _
    exact ⟨merged, .refl nodes, by simp⟩
  · rintro ⟨hops, terminal⟩ split
    obtain ⟨path, cut, rfl⟩ := splitTerminal_eq_ok split
    refine (r.ends_walkPath (fits_field terminal _) s merged).mono ?_
    rintro result ns' ⟨merged', kept, applied⟩
    refine ⟨merged', kept, ?_⟩
    intro succeeded
    exact ⟨path, terminal, cut, applied succeeded⟩

/-- A condition that is resolved comes back with the operand that fits its field in the node of its
path. -/
theorem ends_resolveWhere (s : Schema) (c : WhereCondition) {nodes : List RelationNode}
    (merged : Merged nodes) :
    Ends (r.resolveWhere s c) nodes fun result ns =>
      Merged ns ∧ Kept nodes ns ∧ ∀ c', result = .ok c' → ∃ path field n,
        c.path? = some (path, field) ∧ n ∈ ns ∧ n.table = lastHop path ∧
          ∃ value, n.schema.checkOperand field c = .ok value ∧ c' = { c with value } := by
  refine ends_liftExcept_bind ?_ ?_
  · intro e _
    exact ⟨merged, .refl nodes, by simp⟩
  · rintro ⟨hops, terminal⟩ split
    obtain ⟨path, cut, rfl⟩ := splitTerminal_eq_ok split
    refine (r.ends_walkPath (fits_condition cut) s merged).bind ?_ ?_
    · rintro e ns' ⟨merged', kept, -⟩
      exact ⟨merged', kept, by simp⟩
    · rintro ⟨⟩ ns ⟨merged', kept, applied⟩
      refine ends_get_bind (ends_pure ⟨merged', kept, ?_⟩)
      intro c' returned
      obtain ⟨n, member, table_eq, before, edge, apply⟩ := applied rfl
      obtain ⟨value, checked, rfl⟩ := Outcome.map_eq_ok.1 apply
      -- the only node of the last hop's table is the one that the condition was attached to
      have last : ns.reverse.find?
          (fun k => (Text.splitOn '.' path).getLast? = some k.table) =
            some { before with condition := some { c with value } } := by
        rw [getLast?_splitOn, ← table_eq]
        exact merged'.find?_reverse member
      rw [last] at returned
      have cut' : c.path? = some (path, terminal) := cut
      rw [cut'] at checked
      exact ⟨path, terminal, _, cut, member, table_eq, value, checked,
        (Except.ok.inj returned).symm⟩

/-- A relation that is resolved is projected in full. -/
theorem ends_resolveRelation (s : Schema) (path : String) {nodes : List RelationNode}
    (merged : Merged nodes) :
    Ends (r.resolveRelation s path) nodes fun result ns =>
      Merged ns ∧ Kept nodes ns ∧ (result = .ok () → Terminal.table.Applied (lastHop path) ns) := by
  rw [resolveRelation]
  dsimp only
  split
  · exact ends_throw_bind ⟨merged, .refl nodes, by simp⟩
  · exact r.ends_walkPath (fits_table _) s merged

end SchemaRegistry

/-! ### Calls one after another -/

/-- The path that a call walks along, if it names one. -/
def ResolverCall.path? : ResolverCall → Option String
  | .field name => (Text.cutLast '.' name).map Prod.fst
  | .condition c => c.path?.map Prod.fst
  | .relation hops => some hops

namespace SchemaRegistry

open Resolving

variable {σ : Type} (r : SchemaRegistry (StateM σ))

/-- What a call leaves, refused or not; one that is not refused leaves a node of its last hop. -/
theorem ends_resolve (s : Schema) (call : ResolverCall) {nodes : List RelationNode}
    (merged : Merged nodes) :
    Ends (r.resolve s call) nodes fun result ns =>
      Merged ns ∧ Kept nodes ns ∧ (result = .ok () →
        ∃ path, call.path? = some path ∧ lastHop path ∈ ns.map table) := by
  have joined {t : Terminal} {last : String} {ns : List RelationNode} (h : t.Applied last ns) :
      last ∈ ns.map table := by
    obtain ⟨n, member, table_eq, -⟩ := h
    rw [← table_eq]
    exact List.mem_map_of_mem member
  cases call with
  | field field =>
      refine (r.ends_resolveField s field merged).mono ?_
      rintro result ns ⟨merged', kept, applied⟩
      refine ⟨merged', kept, ?_⟩
      intro succeeded
      obtain ⟨path, name, cut, applied⟩ := applied succeeded
      exact ⟨path, by rw [ResolverCall.path?, cut]; rfl, joined applied⟩
  | condition c =>
      refine (r.ends_resolveWhere s c merged).bind ?_ ?_
      · rintro e ns ⟨merged', kept, -⟩
        exact ⟨merged', kept, by simp⟩
      · rintro c' ns ⟨merged', kept, attached⟩
        refine ends_pure ⟨merged', kept, ?_⟩
        intro _
        obtain ⟨path, field, n, cut, member, table_eq, -⟩ := attached c' rfl
        refine ⟨path, by rw [ResolverCall.path?, cut]; rfl, ?_⟩
        rw [← table_eq]
        exact List.mem_map_of_mem member
  | relation path =>
      refine (r.ends_resolveRelation s path merged).mono ?_
      rintro result ns ⟨merged', kept, applied⟩
      refine ⟨merged', kept, ?_⟩
      intro succeeded
      exact ⟨path, rfl, joined (applied succeeded)⟩

/-- Resolves paths one after another on the nodes so far and tells how each of them ended. -/
def resolveEach {m : Type → Type} [Monad m] (r : SchemaRegistry m) (s : Schema)
    (calls : List ResolverCall) : StateT (List RelationNode) m (List (Outcome Unit)) :=
  calls.mapM fun call => (r.resolve s call).run

theorem run_resolveEach_cons (s : Schema) (call : ResolverCall) (rest : List ResolverCall)
    (nodes : List RelationNode) (w : σ) :
    (r.resolveEach s (call :: rest)).run nodes w =
      match (r.resolve s call).runFrom nodes w with
      | ((outcome, ns), v) =>
        match (r.resolveEach s rest).run ns v with
        | ((outcomes, ns'), v') => ((outcome :: outcomes, ns'), v') := by
  rw [resolveEach, List.mapM_cons]
  rfl

/-- The first of some calls, and the others. -/
theorem exists_of_run_resolveEach {s : Schema} {call : ResolverCall} {rest : List ResolverCall}
    {nodes nodes' : List RelationNode} {outcomes : List (Outcome Unit)} {w w' : σ}
    (run : (r.resolveEach s (call :: rest)).run nodes w = ((outcomes, nodes'), w')) :
    ∃ outcome ns v more, (r.resolve s call).runFrom nodes w = ((outcome, ns), v) ∧
      (r.resolveEach s rest).run ns v = ((more, nodes'), w') ∧ outcomes = outcome :: more := by
  rw [run_resolveEach_cons] at run
  rcases first : (r.resolve s call).runFrom nodes w with ⟨⟨outcome, ns⟩, v⟩
  rw [first] at run
  rcases others : (r.resolveEach s rest).run ns v with ⟨⟨more, ns'⟩, v'⟩
  simp only [others] at run
  cases run
  exact ⟨outcome, ns, v, more, rfl, others, rfl⟩

/-- What each call keeps of the nodes and the state, refused or not, calls one after another keep. -/
theorem resolveEach_keeps (inv : List RelationNode → σ → Prop) {s : Schema}
    (step : ∀ call nodes w, inv nodes w →
      inv ((r.resolve s call).runFrom nodes w).1.2 ((r.resolve s call).runFrom nodes w).2)
    {calls : List ResolverCall} {nodes nodes' : List RelationNode} {outcomes : List (Outcome Unit)}
    {w w' : σ} (start : inv nodes w)
    (run : (r.resolveEach s calls).run nodes w = ((outcomes, nodes'), w')) : inv nodes' w' := by
  induction calls generalizing nodes outcomes w with
  | nil =>
      cases run
      exact start
  | cons call rest ih =>
      obtain ⟨outcome, ns, v, more, first, others, -⟩ := r.exists_of_run_resolveEach run
      have kept := step call nodes w start
      rw [first] at kept
      exact ih kept others

/-- Calls on merged nodes, refused or not, leave merged nodes, lose none, and leave a node of its
last hop for each call that was not refused. -/
theorem resolveEach_step (s : Schema) (calls : List ResolverCall) {nodes nodes' : List RelationNode}
    {outcomes : List (Outcome Unit)} {w w' : σ} (merged : Merged nodes)
    (run : (r.resolveEach s calls).run nodes w = ((outcomes, nodes'), w')) :
    Merged nodes' ∧ Kept nodes nodes' ∧ List.Forall₂ (fun call outcome => outcome = .ok () →
      ∃ path, call.path? = some path ∧ lastHop path ∈ nodes'.map table) calls outcomes := by
  induction calls generalizing nodes outcomes w with
  | nil =>
      cases run
      exact ⟨merged, .refl _, .nil⟩
  | cons call rest ih =>
      obtain ⟨outcome, ns, v, more, first, others, rfl⟩ := r.exists_of_run_resolveEach run
      have ended := r.ends_resolve s call merged w
      rw [first] at ended
      obtain ⟨merged', kept, found⟩ := ended
      obtain ⟨merged'', kept', each⟩ := ih merged' others
      refine ⟨merged'', kept.trans kept', .cons ?_ each⟩
      intro succeeded
      obtain ⟨path, named, joined⟩ := found succeeded
      exact ⟨path, named, kept'.tables joined⟩

/-- **After any paths the nodes are merged, and every path that was followed finds its node.** -/
theorem resolveEach_merged (s : Schema) (calls : List ResolverCall) (w : σ) :
    ∃ outcomes nodes w', (r.resolveEach s calls).run [] w = ((outcomes, nodes), w') ∧
      Merged nodes ∧ List.Forall₂ (fun call outcome => outcome = .ok () →
        ∃ path n, call.path? = some path ∧ Addresses nodes path n) calls outcomes := by
  cases run : (r.resolveEach s calls).run [] w with
  | mk result w' =>
      obtain ⟨outcomes, nodes⟩ := result
      obtain ⟨merged, -, each⟩ := r.resolveEach_step s calls merged_nil run
      refine ⟨outcomes, nodes, w', rfl, merged, each.imp ?_⟩
      intro call outcome found succeeded
      obtain ⟨path, named, joined⟩ := found succeeded
      obtain ⟨n, addressed⟩ := merged.addresses joined
      exact ⟨path, n, named, addressed⟩

end SchemaRegistry

end DataAccess
