import DataAccess.Proofs.Document.Distinct
import DataAccess.Proofs.Engine.InMemory
import DataAccess.Proofs.Query.Paths
/-
**Relations of documents as joins.**  A left join puts beside a row, for every joined table, the
document whose join field equals that of the document joined for the other table of the edge.  Over
documents the joined values are looked up node by node, and the document of the other table is sought
under the path that a node's own path goes on from.  It is there if the other table was first reached
along that path.  If it was reached along another one, nothing is found, whatever the documents hold.

Main definitions:

* `RelationNode.Matches`, `RelationNode.Joins` — the documents that a left join puts beside a row;
* `RelationNode.JoinedValue` — the value of a field in a left join;
* `RelationNode.Anchored` — a node whose path leads along the paths of the tables that it is joined to;
* `RelationNode.Closed` — paths that go on from the paths of nodes;
* `RelationNode.Separate` — joined values that stand under keys of their own;
* `World.lookUp`, `World.attach` — one hop, without its effects;
* `Joinable`, `Attached` — what is asked of the nodes, and what holds after some of them.

Main results:

* `RelationNode.Closed.anchored` — where each path goes on from that of a node, all nodes are anchored;
* `World.lookUp_eq_some_iff` — a hop finds the one document that matches;
* `Attached.found_joins`, `Attached.found_nothing` — a hop finds what the join puts there, or nothing;
* `Attached.attach`, `Attached.foldl` — one more node, and all nodes;
* `Setting.attachRelations_joins` — **the values of an anchored node are those of the left join, and all
  values of another one are null**;
* `SchemaRegistry.attachRelations_detour` — a company that was reached directly hides its region.
-/

set_option autoImplicit false

namespace DataAccess

open RelationNode

/-! ### The left join -/

namespace RelationNode

/-- A document of the node's table whose join field equals that of `p`. -/
def Matches (w : World) (n : RelationNode) (p d : Record) : Prop :=
  d ∈ w.documents n.table ∧
    ∃ v, p.held? n.joinFields.1 = some v ∧ Filter.equal (d.get? n.joinFields.2) v = true

/-- The documents that a left join of the nodes puts beside a row of the base table, node by node: the
document of the other table of the edge is the row itself if that is the base table. -/
inductive Joins (w : World) (base : String) (row : Record) (nodes : List RelationNode) :
    RelationNode → Record → Prop
  | toBase {n : RelationNode} {d : Record} (member : n ∈ nodes) (other : n.otherTable = base)
      (matching : n.Matches w row d) : Joins w base row nodes n d
  | toNode {n m : RelationNode} {p d : Record} (member : n ∈ nodes) (there : m ∈ nodes)
      (other : m.table = n.otherTable) (away : m.table ≠ base) (joined : Joins w base row nodes m p)
      (matching : n.Matches w p d) : Joins w base row nodes n d

/-- The value of a field of a node in a left join: that of the one document that is joined, null if
there is none or it lacks the field. -/
def JoinedValue (w : World) (base : String) (row : Record) (nodes : List RelationNode)
    (n : RelationNode) (field : String) (value : Json) : Prop :=
  (∃ d, (∀ d', Joins w base row nodes n d' ↔ d' = d) ∧ value = (d.get? field).getD .null) ∨
    ((∀ d, ¬ Joins w base row nodes n d) ∧ value = .null)

/-- The field of a node that is joined has no meaning of its own in filters. -/
def Plain (n : RelationNode) : Prop := n.joinFields.2 ≠ "$and" ∧ n.joinFields.2 ≠ "$or"

instance (n : RelationNode) : Decidable n.Plain := inferInstanceAs (Decidable (_ ∧ _))

/-- A node whose path goes on from the path of the node that it is joined to, and so on down to the
base table. -/
inductive Anchored (base : String) (nodes : List RelationNode) : RelationNode → Prop
  | first {n : RelationNode} (member : n ∈ nodes) (start : Text.cutLast '.' n.path = none)
      (plain : n.Plain) : Anchored base nodes n
  | next {n m : RelationNode} {hop : String} (member : n ∈ nodes) (there : m ∈ nodes)
      (cut : Text.cutLast '.' n.path = some (m.path, hop)) (away : m.table ≠ base)
      (anchored : Anchored base nodes m) (plain : n.Plain) : Anchored base nodes n

/-- Every path goes on from the path of a node, if it does not start at the base table. -/
def Closed (nodes : List RelationNode) : Prop :=
  ∀ n ∈ nodes, ∀ pieces ∈ Text.cutLast '.' n.path, pieces.1 ∈ nodes.map path

instance (nodes : List RelationNode) : Decidable (Closed nodes) :=
  inferInstanceAs (Decidable (∀ n ∈ nodes, ∀ pieces ∈ Text.cutLast '.' n.path,
    pieces.1 ∈ nodes.map path))

/-- Where every path goes on from the path of a node and none comes back to the base table, all nodes
are anchored. -/
theorem Closed.anchored {base : String} {nodes : List RelationNode} (closed : Closed nodes)
    (left : base ∉ nodes.map table) (plain : ∀ n ∈ nodes, n.Plain) :
    ∀ n ∈ nodes, Anchored base nodes n := by
  -- the path before the last hop has one segment less
  have by_length (length : Nat) : ∀ n ∈ nodes, (Text.splitOn '.' n.path).length = length →
      Anchored base nodes n := by
    induction length with
    | zero =>
        intro n _ none
        exact absurd (List.length_eq_zero_iff.1 none) (Text.splitOn_ne_nil '.' n.path)
    | succ length ih =>
        intro n member segments
        cases cut : Text.cutLast '.' n.path with
        | none => exact .first member cut (plain n member)
        | some pieces =>
            obtain ⟨before, hop⟩ := pieces
            obtain ⟨m, there, rfl⟩ := List.mem_map.1 (closed n member (before, hop) cut)
            rw [Text.splitOn_of_cutLast cut, List.length_append, List.length_singleton] at segments
            have away : m.table ≠ base := by
              rintro rfl
              exact left (List.mem_map_of_mem there)
            exact .next member there cut away (ih m there (Nat.succ.inj segments)) (plain n member)
  intro n member
  exact by_length _ n member rfl

/-- The key under which a row holds a joined value. -/
def fieldKey (n : RelationNode) (field : String) : String := n.path ++ "." ++ field

/-- The joined values of different nodes stand under different keys, and none of them under a field
that a node is joined by. -/
structure Separate (nodes : List RelationNode) : Prop where
  keys : ∀ n ∈ nodes, ∀ k ∈ nodes, ∀ field ∈ n.columns.getD [], ∀ field' ∈ k.columns.getD [],
    n.fieldKey field = k.fieldKey field' → n.path = k.path
  fields : ∀ n ∈ nodes, ∀ k ∈ nodes, ∀ field ∈ n.columns.getD [], k.joinFields.1 ≠ n.fieldKey field

/-- Names without a dot keep the joined values apart. -/
theorem separate_of_undotted {nodes : List RelationNode}
    (projected : ∀ n ∈ nodes, ∀ field ∈ n.columns.getD [], '.' ∉ field.toList)
    (joined : ∀ n ∈ nodes, '.' ∉ n.joinFields.1.toList) : Separate nodes := by
  constructor
  · intro n hn k hk field hf field' hf' same
    have cut := Text.cutLast_dotted (projected n hn field hf) n.path
    have cut' := Text.cutLast_dotted (projected k hk field' hf') k.path
    rw [fieldKey, fieldKey] at same
    rw [same, cut', Option.some.injEq, Prod.mk.injEq] at cut
    exact cut.1.symm
  · intro n hn k hk field hf same
    refine joined k hk ?_
    rw [same, fieldKey]
    simp

end RelationNode

/-! ### One hop -/

/-- The document that a hop finds for a value; null finds none. -/
def World.lookUp (w : World) (n : RelationNode) : Option Json → Option Record
  | none | some .null => none
  | some v =>
    (w.documents n.table).find? (Filter.accepts · (.object [(n.joinFields.2, .object [("$eq", v)])]))

/-- The document that the hop of a node finds, with the row and the documents found so far. -/
def World.found (w : World) (state : Record × Keyed Record) (n : RelationNode) : Option Record :=
  let parent := match Text.cutLast '.' n.path with
    | some (before, _) => state.2.get? before
    | none => some state.1
  w.lookUp n (parent.bind fun p => p.get? n.joinFields.1)

/-- A row with the projected fields of a document. -/
def RelationNode.fill (n : RelationNode) (found : Option Record) (row : Record) : Record :=
  (n.columns.getD []).foldl (fun (row : Record) field =>
    row.insert (n.fieldKey field) ((found.bind fun doc => doc.get? field).getD .null)) row

/-- The row and the documents found so far after one more node. -/
def World.attach (w : World) (state : Record × Keyed Record) (n : RelationNode) :
    Record × Keyed Record :=
  (n.fill (w.found state n) state.1, match w.found state n with
    | some doc => state.2.insert n.path doc
    | none => state.2)

namespace World

variable {w : World} {n : RelationNode}

/-- A hop finds the one document that matches. -/
theorem lookUp_eq_some_iff (plain : n.Plain)
    (distinct : DistinctIn (w.documents n.table) n.joinFields.2)
    (proper : ∀ d ∈ w.documents n.table, (Json.object d).Proper) (p : Record) {d : Record} :
    w.lookUp n (p.get? n.joinFields.1) = some d ↔ n.Matches w p d := by
  have accepts (d : Record) (v : Json) :
      Filter.accepts d (.object [(n.joinFields.2, .object [("$eq", v)])]) =
        Filter.equal (d.get? n.joinFields.2) v := by
    rw [accepts_clause plain, admits_equal]
  have found {v : Json} (filled : v.isNull = false) : w.lookUp n (some v) =
      (w.documents n.table).find? fun d => Filter.equal (d.get? n.joinFields.2) v := by
    cases v with
    | null => exact absurd filled (by simp [Json.isNull])
    | _ => simp only [lookUp, accepts]
  rw [Matches]
  constructor
  · intro same
    cases key : Keyed.get? p n.joinFields.1 with
    | none => simp [key, lookUp] at same
    | some v =>
        have filled : v.isNull = false := by
          cases v with
          | null => simp [key, lookUp] at same
          | _ => rfl
        rw [key, found filled] at same
        have equal : Filter.equal (d.get? n.joinFields.2) v = true := by
          simpa using List.find?_some same
        exact ⟨List.mem_of_find?_eq_some same, v, Record.held?_eq_some_iff.2 ⟨key, filled⟩, equal⟩
  · rintro ⟨member, v, held, equal⟩
    obtain ⟨key, filled⟩ := Record.held?_eq_some_iff.1 held
    rw [key, found filled]
    cases first : (w.documents n.table).find? fun d => Filter.equal (d.get? n.joinFields.2) v with
    | none => exact absurd equal (List.find?_eq_none.1 first d member)
    | some d' =>
        have member' := List.mem_of_find?_eq_some first
        have equal' : Filter.equal (d'.get? n.joinFields.2) v = true := by
          simpa using List.find?_some first
        rw [distinct.unique proper filled member' member equal' equal]

/-- A field with a meaning of its own finds nothing. -/
theorem lookUp_of_not_plain (special : ¬ n.Plain) (key : Option Json) : w.lookUp n key = none := by
  have refused (d : Record) (v : Json) :
      Filter.accepts d (.object [(n.joinFields.2, .object [("$eq", v)])]) = false := by
    by_cases all : n.joinFields.2 = "$and"
    · simp [all, Filter.accepts, Filter.acceptsClauses, Filter.acceptsEvery]
    · have any : n.joinFields.2 = "$or" := by
        by_contra other
        exact special ⟨all, other⟩
      simp [any, Filter.accepts, Filter.acceptsClauses, Filter.acceptsSome]
  cases key with
  | none => rfl
  | some v => cases v <;> simp [lookUp, refused]

end World

/-! ### The row -/

namespace RelationNode

theorem fieldKey_inj {n : RelationNode} {field other : String} :
    n.fieldKey field = n.fieldKey other ↔ field = other := by
  rw [fieldKey, fieldKey, String.append_right_inj]

/-- A row that is filled is as it was under any other key. -/
theorem get?_fill_of_ne {n : RelationNode} (found : Option Record) (row : Record) {key : String}
    (other : ∀ field ∈ n.columns.getD [], key ≠ n.fieldKey field) :
    (n.fill found row).get? key = row.get? key := by
  rw [fill]
  generalize n.columns.getD [] = columns at other ⊢
  induction columns generalizing row with
  | nil => rfl
  | cons field rest ih =>
      rw [List.foldl_cons, ih _ fun f member => other f (List.mem_cons_of_mem _ member),
        Keyed.get?_insert_of_ne (other field List.mem_cons_self)]

/-- A row that is filled holds the value of each projected field. -/
theorem get?_fill {n : RelationNode} (found : Option Record) (row : Record) (field : String) :
    (n.fill found row).get? (n.fieldKey field) =
      if field ∈ n.columns.getD [] then some ((found.bind fun doc => doc.get? field).getD .null)
      else row.get? (n.fieldKey field) := by
  rw [fill]
  generalize n.columns.getD [] = columns
  induction columns generalizing row with
  | nil => simp
  | cons first rest ih =>
      rw [List.foldl_cons, ih]
      by_cases later : field ∈ rest
      · simp [later]
      · by_cases here : field = first
        · simp [here]
        · have apart : n.fieldKey field ≠ n.fieldKey first := by
            rw [ne_eq, fieldKey_inj]
            exact here
          simp [here, later, Keyed.get?_insert_of_ne apart]

end RelationNode

section Runs

open DataAccess.Action DocumentDatasource

variable (g : Setting)

theorem Setting.runFrom_related (n : RelationNode) (key : Option Json) (w : World) :
    runFrom (g.documents.related n key) w = (.ok (w.lookUp n key), w) := by
  have asked (filter : Filter) : runFrom (do
      return (← ask (g.store.find n.table filter (.first 1))).head?) w =
        (.ok ((w.documents n.table).find? (Filter.accepts · filter)), w) := by
    rw [runFrom_bind, runFrom_find, MemoryStore.find_first]
    exact congrArg (fun found => (Except.ok found, w)) Option.head?_toList
  cases key with
  | none => rfl
  | some v =>
      cases v with
      | null => rfl
      | _ => exact asked _

theorem Setting.runFrom_attachRelation (state : Record × Keyed Record) (n : RelationNode)
    (w : World) :
    runFrom (g.documents.attachRelation state n) w = (.ok (w.attach state n), w) := by
  obtain ⟨row, joined⟩ := state
  rw [attachRelation]
  refine (runFrom_bind _ _ w).trans ?_
  rw [runFrom_related]
  rfl

/-- Attaching relations is one hop after another, and changes nothing. -/
theorem Setting.runFrom_attachRelations (nodes : List RelationNode) (row : Record) (w : World) :
    runFrom (g.documents.attachRelations nodes row) w =
      (.ok (nodes.foldl w.attach (row, [])).1, w) := by
  have hops (state : Record × Keyed Record) :
      runFrom (nodes.foldlM g.documents.attachRelation state) w =
        (.ok (nodes.foldl w.attach state), w) := by
    induction nodes generalizing state with
    | nil => rfl
    | cons n rest ih =>
        rw [List.foldlM_cons, runFrom_bind, runFrom_attachRelation]
        exact ih (w.attach state n)
  rw [attachRelations, runFrom_bind, hops]
  rfl

end Runs

/-! ### All hops -/

/-- Nodes whose hops can be joined: they are merged and in order, each is joined to the table that its
path comes from, and their documents are told apart by the fields that are joined. -/
structure Joinable (w : World) (base : String) (nodes : List RelationNode) : Prop where
  merged : Merged nodes
  ordered : InOrder nodes
  connects : ∀ n ∈ nodes, n.Connects base
  separate : Separate nodes
  proper : ∀ n ∈ nodes, ∀ d ∈ w.documents n.table, (Json.object d).Proper
  distinct : ∀ n ∈ nodes, DistinctIn (w.documents n.table) n.joinFields.2

/-- What holds of the row and of the documents found so far after the nodes `done`. -/
structure Attached (w : World) (base : String) (row : Record) (nodes done : List RelationNode)
    (state : Record × Keyed Record) : Prop where
  kept : ∀ n ∈ nodes, state.1.get? n.joinFields.1 = row.get? n.joinFields.1
  values : ∀ n ∈ done, ∀ field ∈ n.columns.getD [], state.1.get? (n.fieldKey field) =
    some (((state.2.get? n.path).bind fun doc => doc.get? field).getD .null)
  strangers : ∀ path, path ∉ done.map RelationNode.path → state.2.get? path = none
  joined : ∀ n ∈ done, Anchored base nodes n →
    ∀ d, state.2.get? n.path = some d ↔ Joins w base row nodes n d
  missed : base ∉ nodes.map table → ∀ n ∈ done, ¬ Anchored base nodes n → state.2.get? n.path = none

section Hops

variable {w : World} {base : String} {row : Record} {nodes done later : List RelationNode}
  {n : RelationNode} {state : Record × Keyed Record}

/-- A node and those before it are nodes. -/
theorem mem_of_split (split : nodes = done ++ n :: later) :
    n ∈ nodes ∧ ∀ k ∈ done, k ∈ nodes := by
  rw [split]
  exact ⟨by simp, fun k hk => List.mem_append_left _ hk⟩

/-- The node of the path that a path goes on from is an earlier one, and the other end of the edge. -/
theorem Joinable.parent (joinable : Joinable w base nodes) (split : nodes = done ++ n :: later)
    {m : RelationNode} {hop : String} (there : m ∈ nodes)
    (cut : Text.cutLast '.' n.path = some (m.path, hop)) : m ∈ done ∧ m.table = n.otherTable := by
  obtain ⟨member, earlier⟩ := mem_of_split split
  have ends := (joinable.merged.sound m there).lastHop_path
  constructor
  · obtain ⟨k, hk, same⟩ := List.mem_map.1 (joinable.ordered done n later split m.path hop cut)
    rw [← joinable.merged.eq_of_table (earlier k hk) there (same.trans ends)]
    exact hk
  · rw [(joinable.connects n member).otherTable_eq, comesFrom, cut]
    exact ends.symm

/-- The hop of an anchored node finds what the left join puts there. -/
theorem Attached.found_joins (attached : Attached w base row nodes done state)
    (joinable : Joinable w base nodes) (split : nodes = done ++ n :: later)
    (anchored : Anchored base nodes n) (d : Record) :
    w.found state n = some d ↔ Joins w base row nodes n d := by
  have member := (mem_of_split split).1
  have lookUp (plain : n.Plain) (p : Record) :
      w.lookUp n (p.get? n.joinFields.1) = some d ↔ n.Matches w p d :=
    World.lookUp_eq_some_iff plain (joinable.distinct n member) (joinable.proper n member) p
  cases anchored with
  | first _ start plain =>
      have other : n.otherTable = base := by
        rw [(joinable.connects n member).otherTable_eq, comesFrom, start]
      rw [World.found, start]
      simp only [Option.bind_some]
      rw [attached.kept n member, lookUp plain]
      constructor
      · exact .toBase member other
      · intro joins
        cases joins with
        | toBase _ _ matching => exact matching
        | toNode _ _ same away _ _ => exact absurd (same.trans other) away
  | @next _ m hop _ there cut away anchored plain =>
      obtain ⟨earlier, other⟩ := joinable.parent split there cut
      have above := attached.joined m earlier anchored
      rw [World.found, cut]
      simp only
      constructor
      · intro found
        cases parent : state.2.get? m.path with
        | none => simp [parent, World.lookUp] at found
        | some p =>
            rw [parent, Option.bind_some, lookUp plain] at found
            exact .toNode member there other away ((above p).1 parent) found
      · intro joins
        cases joins with
        | toBase _ same _ => exact absurd (other.trans same) away
        | @toNode _ m' p _ _ there' other' _ joins matching =>
            obtain rfl := joinable.merged.eq_of_table there' there (other'.trans other.symm)
            rw [(above p).2 joins, Option.bind_some, lookUp plain]
            exact matching

/-- The hop of any other node finds nothing, if no path comes back to the base table. -/
theorem Attached.found_nothing (attached : Attached w base row nodes done state)
    (joinable : Joinable w base nodes) (split : nodes = done ++ n :: later)
    (left : base ∉ nodes.map table) (adrift : ¬ Anchored base nodes n) : w.found state n = none := by
  obtain ⟨member, earlier⟩ := mem_of_split split
  by_cases plain : n.Plain
  · rw [World.found]
    cases cut : Text.cutLast '.' n.path with
    | none => exact absurd (.first member cut plain) adrift
    | some pieces =>
        obtain ⟨before, hop⟩ := pieces
        have parent : state.2.get? before = none := by
          by_cases reached : before ∈ nodes.map RelationNode.path
          · obtain ⟨m, there, rfl⟩ := List.mem_map.1 reached
            have away : m.table ≠ base := by
              rintro rfl
              exact left (List.mem_map_of_mem there)
            refine attached.missed left m (joinable.parent split there cut).1 ?_
            intro anchored
            exact adrift (.next member there cut away anchored plain)
          · refine attached.strangers before ?_
            intro before_n
            obtain ⟨m, hm, same⟩ := List.mem_map.1 before_n
            exact reached (List.mem_map.2 ⟨m, earlier m hm, same⟩)
        simp only [parent, Option.bind_none]
        rfl
  · exact World.lookUp_of_not_plain plain _

/-- A node that nothing is kept under yet is kept with what its hop finds. -/
theorem World.get?_attach_self (absent : state.2.get? n.path = none) :
    (w.attach state n).2.get? n.path = w.found state n := by
  rw [World.attach]
  cases w.found state n with
  | none => exact absent
  | some doc => exact Keyed.get?_insert_self _ _ _

/-- What is kept under other paths stays. -/
theorem World.get?_attach_of_ne {path : String} (other : path ≠ n.path) :
    (w.attach state n).2.get? path = state.2.get? path := by
  rw [World.attach]
  cases w.found state n with
  | none => rfl
  | some doc => exact Keyed.get?_insert_of_ne other _ _

/-- One more node. -/
theorem Attached.attach (attached : Attached w base row nodes done state)
    (joinable : Joinable w base nodes) (split : nodes = done ++ n :: later) :
    Attached w base row nodes (done ++ [n]) (w.attach state n) := by
  obtain ⟨member, earlier⟩ := mem_of_split split
  have new : n.path ∉ done.map RelationNode.path := by
    have paths := joinable.merged.paths
    rw [split, List.map_append, List.map_cons, List.nodup_append] at paths
    intro reached
    exact paths.2.2 n.path reached n.path List.mem_cons_self rfl
  have own := World.get?_attach_self (w := w) (attached.strangers n.path new)
  have stays {k : RelationNode} (hk : k ∈ done) :
      (w.attach state n).2.get? k.path = state.2.get? k.path := by
    refine World.get?_attach_of_ne ?_
    intro same
    exact new (same ▸ List.mem_map_of_mem hk)
  refine ⟨?_, ?_, ?_, ?_, ?_⟩
  · intro k hk
    rw [← attached.kept k hk]
    exact get?_fill_of_ne _ _ fun field => joinable.separate.fields n member k hk field
  · intro k hk field projected
    rcases List.mem_append.1 hk with hk | hk
    · rw [stays hk, ← attached.values k hk field projected]
      refine get?_fill_of_ne _ _ ?_
      intro field' projected' same
      have paths := joinable.separate.keys k (earlier k hk) n member field projected field' projected' same
      exact new (paths ▸ List.mem_map_of_mem hk)
    · obtain rfl := List.mem_singleton.1 hk
      rw [own]
      refine (get?_fill _ _ field).trans ?_
      rw [if_pos projected]
  · intro path absent
    rw [List.map_append, List.mem_append, not_or, List.map_singleton, List.mem_singleton] at absent
    rw [World.get?_attach_of_ne absent.2]
    exact attached.strangers path absent.1
  · intro k hk anchored d
    rcases List.mem_append.1 hk with hk | hk
    · rw [stays hk]
      exact attached.joined k hk anchored d
    · obtain rfl := List.mem_singleton.1 hk
      rw [own]
      exact attached.found_joins joinable split anchored d
  · intro left k hk adrift
    rcases List.mem_append.1 hk with hk | hk
    · rw [stays hk]
      exact attached.missed left k hk adrift
    · obtain rfl := List.mem_singleton.1 hk
      rw [own]
      exact attached.found_nothing joinable split left adrift

/-- All nodes. -/
theorem Attached.foldl (attached : Attached w base row nodes done state)
    (joinable : Joinable w base nodes) (split : nodes = done ++ later) :
    Attached w base row nodes nodes (later.foldl w.attach state) := by
  induction later generalizing done state with
  | nil =>
      rw [List.append_nil] at split
      rwa [split] at attached ⊢
  | cons n rest ih =>
      refine ih (attached.attach joinable split) ?_
      rw [split, List.append_assoc]
      rfl

theorem attached_nil : Attached w base row nodes [] (row, []) :=
  ⟨fun _ _ => rfl, by simp, fun _ _ => rfl, by simp, by simp⟩

end Hops

/-! ### The values of a request -/

section Requests

variable {σ : Type} {r : SchemaRegistry (StateM σ)}

/-- **The values of an anchored node are those of the left join, and all values of another one are
null.**  The nodes are those of any paths, and each is joined to the table that its path comes from. -/
theorem Setting.attachRelations_joins (g : Setting) {s : Schema} {calls : List ResolverCall}
    {outcomes : List (Outcome Unit)} {nodes : List RelationNode} {v v' : σ}
    (resolved : (r.resolveEach s calls).run [] v = ((outcomes, nodes), v'))
    (connects : ∀ n ∈ nodes, n.Connects s.table) (separate : Separate nodes) {w : World}
    (proper : ∀ n ∈ nodes, ∀ d ∈ w.documents n.table, (Json.object d).Proper)
    (distinct : ∀ n ∈ nodes, DistinctIn (w.documents n.table) n.joinFields.2) (row : Record) :
    ∃ row', Action.runFrom (g.documents.attachRelations nodes row) w = (.ok row', w) ∧
      ∀ n ∈ nodes, ∀ field ∈ n.columns.getD [], ∃ value,
        row'.get? (n.path ++ "." ++ field) = some value ∧
          (Anchored s.table nodes n → JoinedValue w s.table row nodes n field value) ∧
          (s.table ∉ nodes.map table → ¬ Anchored s.table nodes n → value = .null) := by
  have merged := (r.resolveEach_step s calls merged_nil resolved).1
  have ordered := r.inOrder_resolveEach s calls inOrder_nil resolved
  have joinable : Joinable w s.table nodes := ⟨merged, ordered, connects, separate, proper, distinct⟩
  have attached : Attached w s.table row nodes nodes (nodes.foldl w.attach (row, [])) :=
    attached_nil.foldl joinable rfl
  refine ⟨_, g.runFrom_attachRelations nodes row w, ?_⟩
  intro n member field projected
  refine ⟨_, attached.values n member field projected, ?_, ?_⟩
  · intro anchored
    have joined := attached.joined n member anchored
    cases found : (nodes.foldl w.attach (row, [])).2.get? n.path with
    | none =>
        refine .inr ⟨?_, rfl⟩
        intro d joins
        exact absurd (found.symm.trans ((joined d).2 joins)) (by simp)
    | some d =>
        refine .inl ⟨d, ?_, rfl⟩
        intro d'
        rw [← joined d', found, Option.some.injEq]
        exact eq_comm
  · intro left adrift
    rw [attached.missed left n member adrift]
    rfl

end Requests

/-! ### Two ways to a region -/

namespace SchemaRegistry

/-- The nodes of some fields of people. -/
def firmNodes (fields : List String) : List RelationNode :=
  ((firms.resolveEach staff (fields.map .field)).run [] ()).1.2

/-- Two regions, a company in each, and a department of the first one. -/
def firmWorld : World :=
  { store := [
      ("department", ⟨[[("_id", .string "d"), ("name", .string "Research"),
        ("company_id", .string "a")]], ⟨[], []⟩⟩),
      ("company", ⟨[[("_id", .string "a"), ("name", .string "Acme"), ("region_id", .string "n")],
        [("_id", .string "b"), ("name", .string "Bolt"), ("region_id", .string "s")]], ⟨[], []⟩⟩),
      ("region", ⟨[[("_id", .string "n"), ("name", .string "North")],
        [("_id", .string "s"), ("name", .string "South")]], ⟨[], []⟩⟩)]
    cache := [], issued := 0 }

/-- Someone who belongs to the second company, and to a department of the first one. -/
def staffRow : Record :=
  [("_id", .string "u"), ("department_id", .string "d"), ("company_id", .string "b")]

/-- The documents of the joined tables are proper and have different keys. -/
theorem firmWorld_documents {table : String} (joined : table ∈ ["department", "company", "region"]) :
    (∀ d ∈ firmWorld.documents table, (Json.object d).Proper) ∧
      DistinctIn (firmWorld.documents table) "_id" := by
  have texts : ∀ table ∈ ["department", "company", "region"], ∀ d ∈ firmWorld.documents table,
      (Keyed.keys d).Nodup ∧ ∀ entry ∈ d, entry.2.asString? ≠ none := by decide +kernel
  have keys : ∀ table ∈ ["department", "company", "region"],
      (∀ d ∈ firmWorld.documents table, (d.get? "_id").bind Json.asString? ≠ none) ∧
        (firmWorld.documents table).Pairwise fun a b =>
          (a.get? "_id").bind Json.asString? ≠ (b.get? "_id").bind Json.asString? := by
    decide +kernel
  constructor
  · intro d member
    exact proper_of_texts (texts table joined d member).1 (texts table joined d member).2
  · exact distinctIn_of_texts (keys table joined).1 (keys table joined).2

theorem resolve_firmNodes (fields : List String) : ∃ outcomes,
    (firms.resolveEach staff (fields.map .field)).run [] () = ((outcomes, firmNodes fields), ()) :=
  ⟨_, rfl⟩

/-- Fields of the joined tables can be joined, if each node is joined by the key of its table to the
table that its path comes from. -/
theorem joinable_firmNodes {fields : List String}
    (each : ∀ n ∈ firmNodes fields, n.Connects "users" ∧
      ((∀ field ∈ n.columns.getD [], '.' ∉ field.toList) ∧ '.' ∉ n.joinFields.1.toList) ∧
        n.table ∈ ["department", "company", "region"] ∧ n.joinFields.2 = "_id") :
    Joinable firmWorld "users" (firmNodes fields) := by
  obtain ⟨outcomes, resolved⟩ := resolve_firmNodes fields
  refine ⟨(firms.resolveEach_step staff _ merged_nil resolved).1,
    firms.inOrder_resolveEach staff _ inOrder_nil resolved, fun n member => (each n member).1,
    separate_of_undotted ?_ ?_, ?_, ?_⟩
  · intro n member
    exact (each n member).2.1.1
  · intro n member
    exact (each n member).2.1.2
  · intro n member
    exact (firmWorld_documents (each n member).2.2.1).1
  · intro n member
    rw [(each n member).2.2.2]
    exact (firmWorld_documents (each n member).2.2.1).2

/-- The nodes of one path to the region. -/
def regionNodes : List RelationNode := firmNodes ["department.company.region.name"]

theorem attachRelations_region : ∃ row' n value,
    Action.runFrom (Setting.tally.documents.attachRelations regionNodes staffRow) firmWorld =
      (.ok row', firmWorld) ∧
    (n ∈ regionNodes ∧ n.path = "department.company.region") ∧
      row'.get? "department.company.region.name" = some value ∧
      JoinedValue firmWorld "users" staffRow regionNodes n "name" value := by
  obtain ⟨outcomes, resolved⟩ := resolve_firmNodes ["department.company.region.name"]
  have joinable : Joinable firmWorld "users" regionNodes := joinable_firmNodes (by decide +kernel)
  obtain ⟨row', run, each⟩ := Setting.tally.attachRelations_joins resolved joinable.connects
    joinable.separate joinable.proper joinable.distinct staffRow
  have last : ∃ n ∈ regionNodes, n.path = "department.company.region" ∧
      "name" ∈ n.columns.getD [] := by
    decide +kernel
  obtain ⟨n, member, path_eq, projected⟩ := last
  have closed : Closed regionNodes := by decide +kernel
  have anchored : Anchored "users" regionNodes n :=
    closed.anchored (by decide +kernel) (by decide +kernel) n member
  obtain ⟨value, stands, joined, -⟩ := each n member "name" projected
  rw [path_eq] at stands
  exact ⟨row', n, value, run, ⟨member, path_eq⟩, stands, joined anchored⟩

/-- The nodes of the same path after a direct one to the company. -/
def detourNodes : List RelationNode :=
  firmNodes ["company.name", "department.company.region.name"]

/-- If the company was reached directly before, the left join finds its region, and the joined value is
null. -/
theorem attachRelations_detour : Joinable firmWorld "users" detourNodes ∧ ∃ row' n d,
    Action.runFrom (Setting.tally.documents.attachRelations detourNodes staffRow) firmWorld =
      (.ok row', firmWorld) ∧
    (n ∈ detourNodes ∧ n.path = "department.company.region" ∧ "name" ∈ n.columns.getD []) ∧
      row'.get? "department.company.region.name" = some .null ∧
      Joins firmWorld "users" staffRow detourNodes n d ∧ d.get? "name" = some (.string "South") := by
  have nodes : ∃ c ∈ detourNodes, ∃ n ∈ detourNodes,
      (n.path = "department.company.region" ∧ "name" ∈ n.columns.getD []) ∧
        (c.table = "company" ∧ c.otherTable = "users" ∧ c.joinFields = ("company_id", "_id")) ∧
        n.table = "region" ∧ n.otherTable = "company" ∧ n.joinFields = ("region_id", "_id") := by
    decide +kernel
  have null : (Keyed.get? (detourNodes.foldl firmWorld.attach (staffRow, [])).1
      "department.company.region.name").map Json.isNull = some true := by
    decide +kernel
  refine ⟨joinable_firmNodes (by decide +kernel), ?_⟩
  obtain ⟨c, hc, n, hn, reached, ⟨ctable, cother, cfields⟩, ntable, nother, nfields⟩ := nodes
  -- the company that the person names, and its region
  have company : Joins firmWorld "users" staffRow detourNodes c
      [("_id", .string "b"), ("name", .string "Bolt"), ("region_id", .string "s")] := by
    refine .toBase hc cother ⟨?_, .string "b", ?_, ?_⟩
    · rw [ctable]
      simp [firmWorld, World.documents, MemoryStore.documents, MemoryStore.collection]
    · rw [cfields]
      rfl
    · rw [cfields]
      decide +kernel
  have region : Joins firmWorld "users" staffRow detourNodes n
      [("_id", .string "s"), ("name", .string "South")] := by
    refine .toNode hn hc (ctable.trans nother.symm) ?_ company ⟨?_, .string "s", ?_, ?_⟩
    · rw [ctable]
      decide
    · rw [ntable]
      simp [firmWorld, World.documents, MemoryStore.documents, MemoryStore.collection]
    · rw [nfields]
      rfl
    · rw [nfields]
      decide +kernel
  obtain ⟨v, stands, isNull⟩ := Option.map_eq_some_iff.1 null
  rw [Json.isNull_iff.1 isNull] at stands
  exact ⟨_, n, _, Setting.tally.runFrom_attachRelations detourNodes staffRow firmWorld,
    ⟨hn, reached⟩, stands, region, rfl⟩

end SchemaRegistry

end DataAccess
