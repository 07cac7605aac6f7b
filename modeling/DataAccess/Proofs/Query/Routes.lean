import DataAccess.Proofs.Action
import DataAccess.Proofs.Query.Framing
/-
**Which paths are followed.**  A path is meant to be followed along declared relations: each hop is
one of the schema that the hop before it leads to.  A walk asks for the relation only where the table
of the hop is not joined yet.  So it follows every declared path, whatever was joined before, and it
stops at a hop that is neither declared nor joined; but a hop that is not declared is followed all the
same once its table is joined along another path.

Main definitions:

* `Schema.after`, `Schema.Declares` — the schema in which a hop is looked up, and a hop that is there;
* `Schema.NoShortcut` — a path whose hops are declared wherever their tables are joined;
* `Schema.comesTo` — what a path comes to, by the tables that are joined;
* `RelationNode.schemaIn`, `RelationNode.Served` — the schemas of joined tables, and nodes with those
  that a registry answers with;
* `SchemaRegistry.Follows` — the hops that a walk takes, and where it stops.

Main results:

* `Schema.comesTo_congr` — a path comes to the same wherever its shortcuts are the same;
* `SchemaRegistry.follows_walk` — what a walk follows, whatever the registry answers;
* `SchemaRegistry.settled_walk` — what a walk comes to, where the registry answers alike;
* `SchemaRegistry.resolve_follows` — **a hop is followed if it is declared or its table is joined, and
  a path without shortcuts ends alike whatever was resolved before**.
-/

set_option autoImplicit false

namespace DataAccess

/-! ### Declared paths -/

/-- What holds of each item of a list and of those around it, holds of the first item, and of the
others with the first one before them. -/
theorem forall_split_cons {α : Type} {a : α} {items : List α} {p : List α → α → List α → Prop} :
    (∀ before b after, a :: items = before ++ b :: after → p before b after) ↔
      p [] a items ∧ ∀ before b after, items = before ++ b :: after → p (a :: before) b after := by
  constructor
  · intro all
    refine ⟨all [] a items rfl, ?_⟩
    rintro before b after rfl
    exact all (a :: before) b after rfl
  · rintro ⟨first, others⟩ before b after split
    rcases List.cons_eq_append_iff.1 split with ⟨rfl, here⟩ | ⟨more, rfl, later⟩
    · obtain ⟨rfl, rfl⟩ := List.cons.inj here
      exact first
    · exact others more b after later

namespace Schema

/-- The schema in which a hop is looked up when others were walked before it: the base schema, or
that of the last one's table. -/
def after (s : Schema) (schemaOf : String → Option Schema) (walked : List String) : Option Schema :=
  match walked.getLast? with
  | none => some s
  | some table => schemaOf table

/-- A hop is a declared relation, in either direction, of the schema that it is looked up in. -/
def Declares (s : Schema) (schemaOf : String → Option Schema) (walked : List String)
    (hop : String) : Prop :=
  ∃ current, s.after schemaOf walked = some current ∧ current.links.contains hop = true

/-- No hop of a path takes a shortcut: where its table is joined, and not by the path itself, the hop
is declared. -/
def NoShortcut (s : Schema) (schemaOf : String → Option Schema) (joined hops : List String) : Prop :=
  ∀ walked hop rest, hops = walked ++ hop :: rest →
    ∀ current, s.after schemaOf walked = some current →
      hop ∈ joined → hop ∈ walked ∨ current.links.contains hop = true

variable {s : Schema} {schemaOf : String → Option Schema}

@[simp] theorem after_nil : s.after schemaOf [] = some s := rfl

/-- After a hop the walk goes on from the schema of its table. -/
theorem after_cons {hop : String} {next : Schema} (here : schemaOf hop = some next)
    (walked : List String) : s.after schemaOf (hop :: walked) = next.after schemaOf walked := by
  cases walked with
  | nil => exact here
  | cons first rest =>
      rw [after, after, List.getLast?_cons_cons]
      cases last : (first :: rest).getLast? with
      | none => exact absurd (List.getLast?_eq_none_iff.1 last) (by simp)
      | some table => rfl

theorem declares_nil {hop : String} :
    s.Declares schemaOf [] hop ↔ s.links.contains hop = true := by
  simp [Declares]

theorem declares_cons {hop later : String} {next : Schema} (here : schemaOf hop = some next)
    {walked : List String} :
    s.Declares schemaOf (hop :: walked) later ↔ next.Declares schemaOf walked later := by
  rw [Declares, Declares, after_cons here]

end Schema

/-! ### What a path comes to -/

/-- Whether the end of a path fits the table of its last hop. -/
def Terminal.check (t : Terminal) (table : String) (schema : Schema) : Outcome Unit :=
  match t with
  | .field name => if schema.hasColumn name then .ok () else .error (.unknownField name table)
  | .condition c =>
    (schema.checkOperand (((c.path?).map Prod.snd).getD c.column) c).map fun _ => ()
  | .table => .ok ()

/-- The end of a path fits a node as it fits the table of the node. -/
theorem Terminal.apply_check (t : Terminal) (n : RelationNode) :
    (fun _ => ()) <$> t.apply n = t.check n.table n.schema := by
  cases t with
  | field name =>
      rw [apply, check]
      split <;> rfl
  | condition c =>
      rw [apply, check]
      rcases n.schema.checkOperand (((c.path?).map Prod.snd).getD c.column) c with _ | _ <;> rfl
  | table => rfl

namespace Schema

variable (serve : String → Outcome Schema)

/-- Where a hop leads to when schemas are served alike: it is followed if it is declared, or if its
table is joined already. -/
def hopTo (joined : List String) (current : Schema) (hop : String) : Outcome Schema :=
  if hop ∈ joined ∨ current.links.contains hop = true then serve hop
  else .error (.unknownRelation hop current.table)

/-- What a path comes to when schemas are served alike. -/
def comesTo (t : Terminal) (joined : List String) (current : Schema) : List String → Outcome Unit
  | [] => .ok ()
  | hop :: rest => do
    let next ← hopTo serve joined current hop
    if rest.isEmpty then t.check hop next else comesTo t (hop :: joined) next rest

variable {serve}

theorem hopTo_eq_ok {joined : List String} {current next : Schema} {hop : String}
    (h : current.hopTo serve joined hop = .ok next) : serve hop = .ok next := by
  rw [hopTo] at h
  split at h
  · exact h
  · exact absurd h (by simp)

/-- A path comes to the same wherever its shortcuts are the same. -/
theorem comesTo_congr {t : Terminal} {hops : List String} {s : Schema} {joined joined' : List String}
    (same : ∀ walked hop rest, hops = walked ++ hop :: rest →
      ∀ current, s.after (fun table => (serve table).toOption) walked = some current →
        current.links.contains hop = false →
        (hop ∈ joined ∨ hop ∈ walked ↔ hop ∈ joined' ∨ hop ∈ walked)) :
    s.comesTo serve t joined hops = s.comesTo serve t joined' hops := by
  induction hops generalizing s joined joined' with
  | nil => rfl
  | cons hop rest ih =>
      obtain ⟨first, others⟩ := forall_split_cons.1 same
      have taken : s.hopTo serve joined hop = s.hopTo serve joined' hop := by
        rw [hopTo, hopTo]
        cases declared : s.links.contains hop with
        | true => simp
        | false =>
            have iff := first s rfl declared
            simp only [List.not_mem_nil, or_false] at iff
            simp only [iff]
      rw [comesTo, comesTo, taken]
      cases reached : s.hopTo serve joined' hop with
      | error e => rfl
      | ok next =>
          have here : (serve hop).toOption = some next := by
            rw [hopTo_eq_ok reached]
            rfl
          refine congrArg (if rest.isEmpty then t.check hop next else ·) (ih ?_)
          intro walked later more split current looked_up undeclared
          have behind : s.after (fun table => (serve table).toOption) (hop :: walked) =
              next.after (fun table => (serve table).toOption) walked := after_cons here walked
          have iff := others walked later more split current (behind.trans looked_up) undeclared
          simp only [List.mem_cons, or_assoc, or_left_comm] at iff ⊢
          exact iff

end Schema

namespace RelationNode

/-- The schema of a joined table. -/
def schemaIn (nodes : List RelationNode) (table : String) : Option Schema :=
  (nodes.find? fun n => n.table = table).map RelationNode.schema

/-- A table that is found is found on the same edge among more nodes. -/
theorem Kept.schemaIn_eq {nodes ns : List RelationNode} (kept : Kept nodes ns) {hop : String}
    {n : RelationNode} (first : nodes.find? (fun k => k.table = hop) = some n) :
    schemaIn ns hop = some n.schema := by
  have edges (nodes : List RelationNode) :
      schemaIn nodes hop = ((nodes.map edge).find? fun e => e.1 = hop).map fun e => e.2.2 := by
    rw [List.find?_map, Option.map_map]
    rfl
  obtain ⟨more, split⟩ := kept
  have here : (nodes.map edge).find? (fun e => e.1 = hop) = some n.edge := by
    rw [List.find?_map]
    exact congrArg (Option.map edge) first
  rw [edges, ← split, List.find?_append, here]
  rfl

end RelationNode

open RelationNode

namespace SchemaRegistry

open Resolving

variable {σ : Type} (r : SchemaRegistry (StateM σ))

/-! ### Hops that are followed -/

/-- What a path follows: a walk that is not refused took hops to joined tables and declared ones
only, and a walk that comes to any other hop is refused there. -/
structure Follows (s : Schema) (hops : List String) (nodes : List RelationNode)
    (result : Outcome Unit) (ns : List RelationNode) : Prop where
  followed : result = .ok () → ∀ walked hop rest, hops = walked ++ hop :: rest →
    hop ∈ nodes.map table ∨ hop ∈ walked ∨ s.Declares (schemaIn ns) walked hop
  stopped : ∀ walked hop rest, hops = walked ++ hop :: rest →
    ∀ current, (∀ earlier ∈ walked, earlier ∈ ns.map table) →
      s.after (schemaIn ns) walked = some current → current.links.contains hop = false →
      hop ∉ nodes.map table → hop ∉ walked → result = .error (.unknownRelation hop current.table)

/-- What a hop follows: it is refused if its table is not joined and no relation leads there. -/
theorem follows_hopNode (current : Schema) (path hop : String) (nodes : List RelationNode) :
    Ends (r.hopNode current path hop) nodes fun result ns =>
      match result with
      | .error e => ns = nodes ∧ hop ∉ nodes.map table ∧
          (current.links.contains hop = false → e = .unknownRelation hop current.table)
      | .ok n => ns.find? (fun k => k.table = hop) = some n ∧
          (∀ other, other ∈ ns.map table ↔ other ∈ nodes.map table ∨ other = hop) ∧
          (hop ∈ nodes.map table ∨ current.links.contains hop = true) := by
  refine (r.ends_hopped current path hop nodes).mono ?_
  intro result ns hopped
  have first := hopped.first
  cases hopped with
  | joined found =>
      obtain ⟨member, named⟩ := mem_of_find? found
      have there : hop ∈ nodes.map table := named ▸ List.mem_map_of_mem member
      refine ⟨found, ?_, .inl there⟩
      intro other
      exact (or_iff_left_of_imp fun same => same ▸ there).symm
  | undeclared absent unlinked => exact ⟨rfl, absent, fun _ => rfl⟩
  | unserved e absent link =>
      refine ⟨rfl, absent, ?_⟩
      intro undeclared
      exact absurd ((RelationIndex.contains_of_lookup link).symm.trans undeclared) (by simp)
  | appended schema absent link =>
      refine ⟨first _ rfl, ?_, .inr (RelationIndex.contains_of_lookup link)⟩
      intro other
      simp [newNode]

/-- No hop is followed along an empty path. -/
theorem follows_nil (s : Schema) (nodes ns : List RelationNode) (result : Outcome Unit) :
    Follows s [] nodes result ns := by
  constructor
  · intro _ walked hop rest split
    exact absurd split (by simp)
  · intro walked hop rest split
    exact absurd split (by simp)

/-- A hop that is taken, and the hops behind it. -/
theorem Follows.cons {current next : Schema} {hop : String} {rest : List String}
    {nodes ns ns' : List RelationNode} {result : Outcome Unit}
    (taken : hop ∈ nodes.map table ∨ current.links.contains hop = true)
    (tables : ∀ other, other ∈ ns.map table ↔ other ∈ nodes.map table ∨ other = hop)
    (here : schemaIn ns' hop = some next) (others : Follows next rest ns result ns') :
    Follows current (hop :: rest) nodes result ns' := by
  constructor
  · intro succeeded
    refine forall_split_cons.2 ⟨?_, ?_⟩
    · exact taken.imp id fun declared => .inr (Schema.declares_nil.2 declared)
    · intro walked later more split
      rcases others.followed succeeded walked later more split with there | there | declared
      · rcases (tables later).1 there with there | rfl
        · exact .inl there
        · exact .inr (.inl List.mem_cons_self)
      · exact .inr (.inl (List.mem_cons_of_mem _ there))
      · exact .inr (.inr ((Schema.declares_cons here).2 declared))
  · refine forall_split_cons.2 ⟨?_, ?_⟩
    · intro before reached at_hop undeclared absent new
      obtain rfl := Option.some.inj at_hop
      rcases taken with there | declared
      · exact absurd there absent
      · exact absurd (declared.symm.trans undeclared) (by simp)
    · intro walked later more split before reached at_hop undeclared absent new
      rw [Schema.after_cons here] at at_hop
      refine others.stopped walked later more split before ?_ at_hop undeclared ?_ ?_
      · intro earlier member
        exact reached earlier (List.mem_cons_of_mem _ member)
      · intro there
        rcases (tables later).1 there with there | rfl
        · exact absent there
        · exact new List.mem_cons_self
      · intro there
        exact new (List.mem_cons_of_mem _ there)

/-- A hop that is refused. -/
theorem follows_refused {current : Schema} {hop : String} {rest : List String}
    {nodes : List RelationNode} {e : DataError} (absent : hop ∉ nodes.map table)
    (error : current.links.contains hop = false → e = .unknownRelation hop current.table) :
    Follows current (hop :: rest) nodes (.error e) nodes := by
  constructor
  · intro succeeded
    exact absurd succeeded (by simp)
  · refine forall_split_cons.2 ⟨?_, ?_⟩
    · intro before _ at_hop undeclared _ _
      obtain rfl := Option.some.inj at_hop
      rw [error undeclared]
    · intro walked later more _ before reached
      exact absurd (reached hop List.mem_cons_self) absent

/-- What a walk follows, and where it stops. -/
theorem follows_walk (t : Terminal) (hops : List String) (current : Schema) (before : String)
    (nodes : List RelationNode) :
    Ends (r.walk t current before hops) nodes (Follows current hops nodes) := by
  induction hops generalizing current before nodes with
  | nil => exact ends_pure (follows_nil current nodes nodes _)
  | cons hop rest ih =>
      rw [walk]
      generalize (if before = "" then hop else before ++ "." ++ hop) = path
      refine (r.follows_hopNode current path hop nodes).bind ?_ ?_
      · rintro e ns ⟨rfl, absent, error⟩
        exact follows_refused absent error
      · rintro n ns ⟨first, tables, taken⟩
        cases rest with
        | nil =>
            -- the hop was taken, whatever the end of the path does
            simp only [List.isEmpty_nil, if_true]
            cases applied : t.apply n with
            | error e =>
                have kept : Kept ns ns := .refl ns
                exact ends_throw_bind (.cons taken tables (kept.schemaIn_eq first)
                  (follows_nil n.schema ns ns _))
            | ok n' =>
                have kept : Kept ns (update hop (fun _ => n') ns) :=
                  ⟨[], (List.append_nil _).trans
                    (map_edge_update first (Terminal.apply_edge applied)).symm⟩
                exact ends_modify_bind (ends_pure (.cons taken tables (kept.schemaIn_eq first)
                  (follows_nil n.schema ns _ _)))
        | cons next rest =>
            intro w
            have kept := (r.leaves_walk t next rest n.schema path ns w).kept
            exact .cons taken tables (kept.schemaIn_eq first) (ih n.schema path ns w)

end SchemaRegistry

/-! ### Registries that answer alike -/

/-- Nodes with the schemas that are served for their tables. -/
def RelationNode.Served (serve : String → Outcome Schema) (nodes : List RelationNode) : Prop :=
  ∀ n ∈ nodes, serve n.table = .ok n.schema

namespace SchemaRegistry

open Resolving

section Settled

variable {σ : Type} {inv : σ → Prop} {serve : String → Outcome Schema}
  {r : SchemaRegistry (StateM σ)}
  (answers : ∀ table, Action.Answers inv (r.getSchema table none) (serve table))

include answers

/-- What a hop comes to: the schema that is served for its table, if it is followed. -/
theorem settled_hopNode (current : Schema) (path hop : String) {nodes : List RelationNode}
    (served : Served serve nodes) {w : σ} (h : inv w) :
    ∃ result ns v, (r.hopNode current path hop).runFrom nodes w = ((result, ns), v) ∧
      Served serve ns ∧ inv v ∧
      RelationNode.schema <$> result = current.hopTo serve (nodes.map table) hop := by
  rw [runFrom_hopNode, Schema.hopTo]
  cases found : nodes.find? (fun k => k.table = hop) with
  | some n =>
      obtain ⟨member, named⟩ := mem_of_find? found
      have there : hop ∈ nodes.map table := named ▸ List.mem_map_of_mem member
      refine ⟨.ok n, nodes, w, rfl, served, h, ?_⟩
      rw [if_pos (.inl there), ← named, served n member]
      rfl
  | none =>
      have absent := find?_eq_none_iff.1 found
      cases link : current.links.lookup hop with
      | none =>
          have undeclared := RelationIndex.lookup_eq_none_iff.1 link
          refine ⟨_, nodes, w, rfl, served, h, ?_⟩
          rw [if_neg (by simp [absent, undeclared])]
          rfl
      | some step =>
          obtain ⟨v, run, kept⟩ := answers hop w h
          have ran : (r.getSchema hop none).run w = (serve hop, v) := run
          rw [if_pos (.inr (RelationIndex.contains_of_lookup link))]
          simp only [ran]
          cases here : serve hop with
          | error e => exact ⟨.error e, nodes, v, rfl, served, kept, rfl⟩
          | ok schema =>
              refine ⟨.ok (newNode path hop step.1 schema), _, v, rfl, ?_, kept, rfl⟩
              intro n member
              rcases List.mem_append.1 member with member | member
              · exact served n member
              · rw [List.mem_singleton.1 member]
                exact here

/-- What a walk comes to, from any served nodes. -/
theorem settled_walk (t : Terminal) (hops : List String) (current : Schema) (before : String)
    {nodes : List RelationNode} (served : Served serve nodes) {w : σ} (h : inv w) :
    ∃ ns v, (r.walk t current before hops).runFrom nodes w =
        ((current.comesTo serve t (nodes.map table) hops, ns), v) ∧ Served serve ns ∧ inv v := by
  induction hops generalizing current before nodes w with
  | nil => exact ⟨nodes, w, rfl, served, h⟩
  | cons hop rest ih =>
      rw [walk, runFrom_bind]
      generalize (if before = "" then hop else before ++ "." ++ hop) = path
      have follows := r.follows_hopNode current path hop nodes w
      obtain ⟨result, ns, v, run, served', kept, here⟩ :=
        settled_hopNode answers current path hop served h
      rw [run] at follows ⊢
      rw [Schema.comesTo, ← here]
      cases result with
      | error e => exact ⟨ns, v, rfl, served', kept⟩
      | ok n =>
          obtain ⟨first, tables, -⟩ := follows
          obtain ⟨member, named⟩ := mem_of_find? first
          cases rest with
          | nil =>
              have checked := t.apply_check n
              simp only [List.isEmpty_nil, if_true]
              cases applied : t.apply n with
              | error e =>
                  rw [applied, named] at checked
                  exact ⟨ns, v, congrArg (fun ended => ((ended, ns), v)) checked, served', kept⟩
              | ok n' =>
                  rw [applied, named] at checked
                  refine ⟨update hop (fun _ => n') ns, v,
                    congrArg (fun ended => ((ended, _), v)) checked, ?_, kept⟩
                  intro k member'
                  rcases mem_update member' with rfl | member'
                  · obtain ⟨columns, condition, rfl⟩ := Terminal.apply_eq applied
                    exact served' n member
                  · exact served' k member'
          | cons next rest =>
              obtain ⟨ns', v', others, served'', kept'⟩ := ih n.schema path served' kept
              refine ⟨ns', v', ?_, served'', kept'⟩
              have same : n.schema.comesTo serve t (ns.map table) (next :: rest) =
                  n.schema.comesTo serve t (hop :: nodes.map table) (next :: rest) := by
                refine Schema.comesTo_congr ?_
                intro walked later more _ current' _ _
                rw [tables, List.mem_cons]
                tauto
              rw [same] at others
              exact others

/-- What a call comes to, from any served nodes. -/
theorem settled_resolve (s : Schema) (call : ResolverCall) {nodes : List RelationNode}
    (served : Served serve nodes) {w : σ} (h : inv w) :
    ∃ ns v, (r.resolve s call).runFrom nodes w =
        ((call.route >>= s.comesTo serve call.ending (nodes.map table), ns), v) ∧
      Served serve ns ∧ inv v := by
  rw [runFrom_resolve]
  cases call.route with
  | error e => exact ⟨nodes, w, rfl, served, h⟩
  | ok hops => exact settled_walk answers call.ending hops s "" served h

/-- Calls one after another, refused or not, leave served nodes. -/
theorem settled_resolveEach (s : Schema) (calls : List ResolverCall)
    {nodes nodes' : List RelationNode} {outcomes : List (Outcome Unit)} {w w' : σ}
    (served : Served serve nodes) (h : inv w)
    (run : (r.resolveEach s calls).run nodes w = ((outcomes, nodes'), w')) :
    Served serve nodes' ∧ inv w' := by
  refine r.resolveEach_keeps (fun ns v => Served serve ns ∧ inv v) ?_ ⟨served, h⟩ run
  rintro call ns v ⟨served, h⟩
  obtain ⟨ns', v', ended, served', h'⟩ := settled_resolve answers s call served h
  rw [ended]
  exact ⟨served', h'⟩

end Settled

/-! ### Calls -/

variable {σ : Type} (r : SchemaRegistry (StateM σ))

/-- **A call takes the hops that are declared, and those whose tables are joined, and no others.**
Where the registry answers alike, what the call comes to depends on the tables that are joined only,
and a path without shortcuts ends as if none were. -/
theorem resolve_follows (s : Schema) (call : ResolverCall) :
    (∀ nodes, Ends (r.resolve s call) nodes fun result ns =>
      match call.route with
      | .error e => result = .error e ∧ ns = nodes
      | .ok hops => Follows s hops nodes result ns) ∧
    ∀ (inv : σ → Prop) (serve : String → Outcome Schema),
      (∀ table, Action.Answers inv (r.getSchema table none) (serve table)) →
      ∀ (earlier : List ResolverCall) (outcomes : List (Outcome Unit)) (nodes : List RelationNode)
        (w v : σ), inv w → (r.resolveEach s earlier).run [] w = ((outcomes, nodes), v) →
        ((r.resolve s call).runFrom nodes v).1.1 =
            (call.route >>= s.comesTo serve call.ending (nodes.map table)) ∧
          (s.NoShortcut (fun table => (serve table).toOption) (nodes.map table) call.hops →
            ((r.resolve s call).runFrom nodes v).1.1 = ((r.resolve s call).runFrom [] w).1.1) := by
  constructor
  · intro nodes w
    rw [runFrom_resolve]
    cases call.route with
    | error e => exact ⟨rfl, rfl⟩
    | ok hops => exact r.follows_walk call.ending hops s "" nodes w
  · intro inv serve answers earlier outcomes nodes w v start run
    have none_served : Served serve [] := by
      intro n member
      exact absurd member List.not_mem_nil
    obtain ⟨served, kept⟩ := settled_resolveEach answers s earlier none_served start run
    obtain ⟨ns, u, after, -⟩ := settled_resolve answers s call served kept
    obtain ⟨ns', u', alone, -⟩ := settled_resolve answers s call none_served start
    rw [after, alone]
    refine ⟨rfl, ?_⟩
    intro declared
    cases walked : call.route with
    | error e => rfl
    | ok hops =>
        obtain ⟨rfl, -⟩ := route_eq_ok walked
        refine Schema.comesTo_congr ?_
        intro earlier hop rest split current looked_up undeclared
        have repeated (there : hop ∈ nodes.map table) : hop ∈ earlier := by
          rcases declared earlier hop rest split current looked_up there with again | declared
          · exact again
          · exact absurd (declared.symm.trans undeclared) (by simp)
        constructor
        · rintro (there | again)
          · exact .inr (repeated there)
          · exact .inr again
        · rintro (there | again)
          · exact absurd there List.not_mem_nil
          · exact .inr again

/-! ### A shortcut through a department -/

/-- A department, which belongs to a company. -/
def branch : Schema :=
  .ofColumns "department" [.serverKey "id", .plain "company_id" .number]
    [⟨"department", "id", "users", "department_id"⟩, ⟨"company", "id", "department", "company_id"⟩]

/-- A company, which lists the edge of its departments. -/
def employer : Schema :=
  .ofColumns "company" [.serverKey "id", .plain "name" .string]
    [⟨"company", "id", "department", "company_id"⟩]

/-- A registry of people, their departments, and the companies of these. -/
def branches : SchemaRegistry (StateM Unit) :=
  uncached [("users", people), ("department", branch), ("company", employer)]

/-- People have no relation to companies, so their company is refused, but not behind the company of
their department. -/
theorem follows_undeclared :
    people.links.contains "company" = false ∧
    ((branches.resolveEach people
      [.field "company.name", .field "department.company.name"]).run [] ()).1.1 =
        [.error (.unknownRelation "company" "users"), .ok ()] ∧
    ((branches.resolveEach people
      [.field "department.company.name", .field "company.name"]).run [] ()).1.1 =
        [.ok (), .ok ()] := by
  refine ⟨?_, ?_, ?_⟩
  · decide +kernel
  · decide +kernel
  · decide +kernel

/-- What the registry of branches serves. -/
def servedBranch (table : String) : Outcome Schema :=
  (Action.runFrom (branches.getSchema table none) ()).1

/-- The company of a department is read in full as it would be if it had not been joined before. -/
theorem follows_company : ∃ outcomes nodes v,
    (branches.resolveEach people [.field "department.company.name"]).run [] () =
      ((outcomes, nodes), v) ∧
    nodes.map table = ["department", "company"] ∧
    ((branches.resolve people (.relation "department.company")).runFrom nodes v).1.1 =
      ((branches.resolve people (.relation "department.company")).runFrom [] ()).1.1 := by
  have answers (table : String) : Action.Answers (fun _ => True) (branches.getSchema table none)
      (servedBranch table) := fun w _ => ⟨w, rfl, trivial⟩
  have joined : ((branches.resolveEach people [.field "department.company.name"]).run [] ()).1.2.map
      table = ["department", "company"] := by decide +kernel
  rcases run : (branches.resolveEach people [.field "department.company.name"]).run [] () with
    ⟨⟨outcomes, nodes⟩, v⟩
  rw [run] at joined
  refine ⟨outcomes, nodes, v, rfl, joined, ?_⟩
  refine ((branches.resolve_follows people (.relation "department.company")).2 (fun _ => True)
    servedBranch answers _ outcomes nodes () v trivial run).2 ?_
  -- both hops are declared
  have hops : (ResolverCall.relation "department.company").hops = ["department", "company"] := by
    decide +kernel
  have first : people.links.contains "department" = true := by decide +kernel
  have second : (servedBranch "department").toOption.any
      (fun s => s.links.contains "company") = true := by decide +kernel
  rw [hops]
  refine forall_split_cons.2 ⟨?_, forall_split_cons.2 ⟨?_, ?_⟩⟩
  · intro current looked_up _
    exact .inr (Option.some.inj looked_up ▸ first)
  · intro current looked_up _
    have here : (servedBranch "department").toOption = some current := looked_up
    rw [here] at second
    exact .inr second
  · intro walked hop rest split
    exact absurd split (by simp)

end SchemaRegistry

end DataAccess
