import DataAccess.Proofs.Query.Compiling
/-
**What a request selects.**  A token of a `fields` parameter is a field of the base table, or a path to
a field of a joined table if it has a dot in it; a token of a `relations` parameter is a path to a joined
table.  An accepted request projects exactly its plain fields, and every joined table of which it
projects columns was reached along one of its paths, whatever conditions it has besides.

Main definitions:

* `Selection.tokens`, `Selection.plain`, `Selection.paths` — the tokens of parameters with one name, and
  those that are fields and paths;
* `Selection.hops` — the tables that the paths start with;
* `RelationNode.StartsAt` — a path by its first hop;
* `Resolving.Yields` — nodes of one kind that give way to nodes of this kind;
* `RelationNode.Rooted` — a node of which columns are projected only along a path of the request.

Main results:

* `Schema.mem_validateFields`, `SchemaRegistry.fields_parseQuery` — **the projection is the plain
  fields**;
* `SchemaRegistry.yields_walk` — a walk adds nodes that start at its first hop;
* `SchemaRegistry.yields_parseQuery` — **the nodes of an accepted request are rooted**.
-/

set_option autoImplicit false

namespace DataAccess

/-! ### The tokens of a request -/

/-- Names without dots. -/
def Undotted (names : List String) : Prop := ∀ name ∈ names, '.' ∉ name.toList

instance (names : List String) : Decidable (Undotted names) :=
  inferInstanceAs (Decidable (∀ name ∈ names, '.' ∉ name.toList))

namespace Selection

/-- The tokens of the parameters with a name. -/
def tokens (name : String) (params : List (String × String)) : List String :=
  (params.filter fun p => p.1 = name).flatMap fun p => splitList p.2

/-- The fields of the base table that are asked for. -/
def plain (params : List (String × String)) : List String :=
  (tokens "fields" params).filter fun token => !token.toList.contains '.'

/-- The paths to joined fields and tables that are asked for. -/
def paths (params : List (String × String)) : List String :=
  (tokens "fields" params).filter (fun token => token.toList.contains '.') ++
    tokens "relations" params

/-- The tables that these paths start with. -/
def hops (params : List (String × String)) : List String :=
  (paths params).filterMap fun path => (Text.splitOn '.' path).head?

variable {params : List (String × String)}

theorem mem_tokens {name token : String} :
    token ∈ tokens name params ↔ ∃ value, (name, value) ∈ params ∧ token ∈ splitList value := by
  rw [tokens, List.mem_flatMap]
  constructor
  · rintro ⟨⟨other, value⟩, member, here⟩
    obtain ⟨there, same⟩ := List.mem_filter.1 member
    obtain rfl : other = name := by simpa using same
    exact ⟨value, there, here⟩
  · rintro ⟨value, there, here⟩
    exact ⟨(name, value), List.mem_filter.2 ⟨there, by simp⟩, here⟩

theorem mem_plain {field : String} :
    field ∈ plain params ↔ field ∈ tokens "fields" params ∧ '.' ∉ field.toList := by
  simp [plain]

theorem plain_cons (p : String × String) (rest : List (String × String)) :
    plain (p :: rest) = plain [p] ++ plain rest := by
  have parts : tokens "fields" (p :: rest) = tokens "fields" [p] ++ tokens "fields" rest := by
    rw [tokens, ← List.singleton_append, List.filter_append, List.flatMap_append]
    rfl
  rw [plain, parts, List.filter_append]
  rfl

theorem plain_other {p : String × String} (other : p.1 ≠ "fields") : plain [p] = [] := by
  simp [plain, tokens, other]

end Selection

namespace RelationNode

/-- A path whose first hop is named. -/
def StartsAt (first path : String) : Prop := first ≠ "" ∧ (Text.splitOn '.' path).head? = some first

/-- A path that goes on starts where it started. -/
theorem StartsAt.dotted {first path : String} (starts : StartsAt first path) (after : String) :
    StartsAt first (path ++ "." ++ after) := by
  refine ⟨starts.1, ?_⟩
  rw [Text.splitOn_dotted, List.head?_append, starts.2]
  rfl

theorem startsAt_self {hop : String} (named : hop ≠ "") (plain : '.' ∉ hop.toList) :
    StartsAt hop hop := by
  refine ⟨named, ?_⟩
  rw [Text.splitOn_of_not_mem plain]
  rfl

/-- A path that starts somewhere is not empty. -/
theorem StartsAt.ne_empty {first path : String} (starts : StartsAt first path) : path ≠ "" := by
  rintro rfl
  refine starts.1 ?_
  have split : (Text.splitOn '.' "").head? = some "" := by decide
  exact Option.some.inj (starts.2.symm.trans split)

/-- A node of which columns are projected only if its path starts at one of the hops. -/
def Rooted (hops : List String) (n : RelationNode) : Prop :=
  n.columns.getD [] ≠ [] → ∃ first ∈ hops, StartsAt first n.path

/-- A node whose path starts at one of the hops, with a good schema. -/
def Asked (good : Schema → Prop) (hops : List String) (n : RelationNode) : Prop :=
  good n.schema ∧ ∃ first ∈ hops, StartsAt first n.path

end RelationNode

open RelationNode

theorem Selection.startsAt_mem_hops {params : List (String × String)} {path first : String}
    (asked : path ∈ paths params) (starts : StartsAt first path) : first ∈ hops params :=
  List.mem_filterMap.2 ⟨path, asked, starts.2⟩

/-! ### Fields -/

/-- Fields that pass their check are set apart by their dots. -/
theorem Schema.mem_validateFields {s : Schema} {fields plain deep : List String}
    (h : s.validateFields fields = .ok (plain, deep)) :
    (∀ field, field ∈ plain ↔ field ∈ fields ∧ '.' ∉ field.toList) ∧
      ∀ field ∈ deep, field ∈ fields ∧ '.' ∈ field.toList := by
  obtain ⟨-, rfl, rfl⟩ := validateFields_iff.1 h
  simp [List.mem_eraseDups]

namespace SchemaRegistry

open Resolving

variable {σ : Type} {r : SchemaRegistry (StateM σ)} {l : QueryLimits} {s : Schema}

/-- A parameter adds its plain fields to the projection. -/
theorem fields_readParam {d d' : QueryDraft} {p : String × String} {nodes nodes' : List RelationNode}
    {w w' : σ} (h : Returns (r.readParam l s d p) nodes w d' nodes' w') (field : String) :
    field ∈ d'.fields.getD [] ↔ field ∈ d.fields.getD [] ∨ field ∈ Selection.plain [p] := by
  have unchanged {name value : String} (other : name ≠ "fields") :
      field ∈ d.fields.getD [] ↔
        field ∈ d.fields.getD [] ∨ field ∈ Selection.plain [(name, value)] := by
    rw [Selection.plain_other other]
    simp
  cases returns_readParam h with
  | @fields value plain deep _ _ valid _ =>
      have here : field ∈ Selection.plain [("fields", value)] ↔ field ∈ plain := by
        rw [(Schema.mem_validateFields valid).1, Selection.mem_plain, Selection.mem_tokens]
        simp
      rw [QueryDraft.getD_fields_project, List.mem_append, here]
  | relations | sort | limit | offset | page => exact unchanged (by decide)
  | condition unreserved =>
      refine unchanged ?_
      rintro rfl
      exact unreserved (by decide)

/-- **An accepted request projects its plain fields, and no others.** -/
theorem fields_parseQuery {params : List (String × String)} {q : Query} {w w' : σ}
    (h : Action.Returns (r.parseQuery l s params) w q w') (field : String) :
    field ∈ q.fields.getD [] ↔ field ∈ Selection.plain params := by
  have all (params : List (String × String)) : ∀ {d d' : QueryDraft} {nodes nodes' w w'},
      Returns (params.foldlM (r.readParam l s) d) nodes w d' nodes' w' →
      (field ∈ d'.fields.getD [] ↔ field ∈ d.fields.getD [] ∨ field ∈ Selection.plain params) := by
    induction params with
    | nil =>
        intro d d' nodes nodes' w w' run
        obtain ⟨rfl, rfl, rfl⟩ := returns_pure.1 run
        simp [Selection.plain, Selection.tokens]
    | cons p rest ih =>
        intro d d' nodes nodes' w w' run
        rw [List.foldlM_cons] at run
        obtain ⟨next, ns, v, first, others⟩ := returns_bind.1 run
        rw [ih others, fields_readParam first field, Selection.plain_cons p rest, List.mem_append,
          or_assoc]
  obtain ⟨d, ns, u, conditions, relations, read, -, rfl⟩ := returns_parseQuery h
  exact (all params read).trans (by simp [QueryDraft.start])

end SchemaRegistry

/-! ### Nodes of one kind -/

namespace Resolving

variable {σ α β : Type} {inv : σ → Prop} {kind : RelationNode → Prop}

/-- From nodes of one kind and a state of the invariant, a run leaves nodes of this kind and a state of
the invariant, also when it fails; what it returns is good. -/
def Yields (inv : σ → Prop) (kind : RelationNode → Prop) (x : Resolving (StateM σ) α)
    (good : α → Prop) : Prop :=
  ∀ nodes w, (∀ n ∈ nodes, kind n) → inv w →
    (∀ n ∈ (x.runFrom nodes w).1.2, kind n) ∧ inv (x.runFrom nodes w).2 ∧
      ∀ a, (x.runFrom nodes w).1.1 = .ok a → good a

/-- A run that leaves the nodes and the state as they are. -/
theorem yields_still {x : Resolving (StateM σ) α} {good : α → Prop} {result : Outcome α}
    (run : ∀ nodes w, x.runFrom nodes w = ((result, nodes), w))
    (fine : ∀ a, result = .ok a → good a) : Yields inv kind x good := by
  intro nodes w kinds h
  rw [run]
  exact ⟨kinds, h, fine⟩

theorem yields_pure {good : α → Prop} {a : α} (fine : good a) :
    Yields inv kind (pure a : Resolving (StateM σ) α) good := by
  refine yields_still (fun _ _ => rfl) ?_
  intro b same
  exact Except.ok.inj same ▸ fine

theorem yields_throw {good : α → Prop} {e : DataError} :
    Yields inv kind (throw e : Resolving (StateM σ) α) good :=
  yields_still (fun _ _ => rfl) (by simp)

theorem yields_liftExcept {good : α → Prop} {x : Outcome α} (fine : ∀ a, x = .ok a → good a) :
    Yields inv kind (liftExcept x : Resolving (StateM σ) α) good :=
  yields_still (fun _ _ => by cases x <;> rfl) fine

theorem yields_get : Yields inv kind (get : Resolving (StateM σ) (List RelationNode))
    fun nodes => ∀ n ∈ nodes, kind n := by
  intro nodes w kinds h
  refine ⟨kinds, h, ?_⟩
  intro ns same
  exact Except.ok.inj same ▸ kinds

theorem Yields.bind {x : Resolving (StateM σ) α} {f : α → Resolving (StateM σ) β}
    {good : α → Prop} {better : β → Prop} (hx : Yields inv kind x good)
    (hf : ∀ a, good a → Yields inv kind (f a) better) : Yields inv kind (x >>= f) better := by
  intro nodes w kinds h
  obtain ⟨kinds', kept, returned⟩ := hx nodes w kinds h
  rw [runFrom_bind]
  generalize x.runFrom nodes w = first at kinds' kept returned ⊢
  obtain ⟨⟨e | a, ns⟩, v⟩ := first
  · exact ⟨kinds', kept, by simp⟩
  · exact hf a (returned a rfl) ns v kinds' kept

theorem Yields.forM {f : α → Resolving (StateM σ) PUnit} {items : List α}
    (each : ∀ a ∈ items, Yields inv kind (f a) fun _ => True) :
    Yields inv kind (items.forM f) fun _ => True := by
  induction items with
  | nil => exact yields_pure trivial
  | cons a rest ih =>
      refine (each a List.mem_cons_self).bind ?_
      intro _ _
      exact ih fun k member => each k (List.mem_cons_of_mem _ member)

theorem Yields.foldlM {f : β → α → Resolving (StateM σ) β} {items : List α}
    (each : ∀ a ∈ items, ∀ b, Yields inv kind (f b a) fun _ => True) (b : β) :
    Yields inv kind (items.foldlM f b) fun _ => True := by
  induction items generalizing b with
  | nil => exact yields_pure trivial
  | cons a rest ih =>
      rw [List.foldlM_cons]
      refine (each a List.mem_cons_self b).bind ?_
      intro next _
      exact ih (fun k member => each k (List.mem_cons_of_mem _ member)) next

theorem Yields.mapM {f : α → Resolving (StateM σ) β} {items : List α}
    (each : ∀ a ∈ items, Yields inv kind (f a) fun _ => True) :
    Yields inv kind (items.mapM f) fun _ => True := by
  induction items with
  | nil => exact yields_pure trivial
  | cons a rest ih =>
      rw [List.mapM_cons]
      refine (each a List.mem_cons_self).bind ?_
      intro b _
      refine (ih fun k member => each k (List.mem_cons_of_mem _ member)).bind ?_
      intro bs _
      exact yields_pure trivial

end Resolving

namespace SchemaRegistry

open Resolving

/-- A path that is walked has a first hop. -/
theorem splitTerminal_head {name terminal : String} {hops : List String}
    (h : splitTerminal name = .ok (hops, terminal)) :
    ∃ first, hops.head? = some first ∧ StartsAt first name := by
  rw [splitTerminal] at h
  cases last : (Text.splitOn '.' name).getLast? with
  | none =>
      rw [last] at h
      exact absurd h (by simp)
  | some segment =>
      simp only [last] at h
      split at h
      · next dotted =>
        obtain ⟨rfl, -⟩ := Prod.mk.inj (Except.ok.inj h)
        obtain ⟨long, named⟩ := dotted
        obtain ⟨first, rest, split⟩ := List.exists_cons_of_ne_nil (Text.splitOn_ne_nil '.' name)
        rw [split] at long named ⊢
        obtain ⟨next, others, rfl⟩ : ∃ next others, rest = next :: others := by
          refine List.exists_cons_of_ne_nil ?_
          rintro rfl
          simp at long
        have filled : first ≠ "" := by simpa using List.all_eq_true.1 named first List.mem_cons_self
        refine ⟨first, rfl, filled, ?_⟩
        rw [split]
        rfl
      · exact absurd h (by simp)

theorem yields_splitTerminal {σ : Type} {inv : σ → Prop} {kind : RelationNode → Prop}
    (name : String) : Yields inv kind (liftExcept (splitTerminal name) :
      Resolving (StateM σ) (List String × String)) fun pieces =>
        ∃ first, pieces.1.head? = some first ∧ StartsAt first name :=
  yields_liftExcept fun _ split => splitTerminal_head split

section Walks

variable {σ : Type} {inv : σ → Prop} {kind : RelationNode → Prop} {good : Schema → Prop}
  {r : SchemaRegistry (StateM σ)}
  (served : ∀ table, Action.Yields inv (r.getSchema table none) good)

include served

/-- A hop yields a node that is there or a new one. -/
theorem yields_hopNode {path hop : String}
    (fresh : ∀ join schema, good schema → kind (newNode path hop join schema)) (current : Schema) :
    Yields inv kind (r.hopNode current path hop) kind := by
  intro nodes w kinds h
  rw [runFrom_hopNode]
  cases found : nodes.find? (fun n => n.table = hop) with
  | some n =>
      refine ⟨kinds, h, ?_⟩
      intro k same
      exact Except.ok.inj same ▸ kinds n (List.mem_of_find?_eq_some found)
  | none =>
      cases current.links.lookup hop with
      | none => exact ⟨kinds, h, by simp⟩
      | some step =>
          obtain ⟨join, direction⟩ := step
          obtain ⟨kept, returned⟩ := served hop w h
          have run : (r.getSchema hop none).run w = Action.runFrom (r.getSchema hop none) w := rfl
          simp only [run]
          generalize Action.runFrom (r.getSchema hop none) w = answer at kept returned ⊢
          obtain ⟨e | schema, v⟩ := answer
          · exact ⟨kinds, kept, by simp⟩
          · have new := fresh join schema (returned schema rfl)
            refine ⟨?_, kept, ?_⟩
            · rw [List.forall_mem_append, List.forall_mem_singleton]
              exact ⟨kinds, new⟩
            · intro n same
              exact Except.ok.inj same ▸ new

/-- A walk adds nodes that start at its first hop, and applies its end to one node. -/
theorem yields_walk {t : Terminal} {first : String}
    (ended : ∀ n n', kind n → t.apply n = .ok n' → kind n')
    (fresh : ∀ path hop join schema, StartsAt first path → good schema →
      kind (newNode path hop join schema)) {hops : List String} (current : Schema) {before : String}
    (start : StartsAt first before ∨
      before = "" ∧ first ≠ "" ∧ '.' ∉ first.toList ∧ hops.head? = some first) :
    Yields inv kind (r.walk t current before hops) fun _ => True := by
  induction hops generalizing current before with
  | nil => exact yields_pure trivial
  | cons hop rest ih =>
      have starts : StartsAt first (if before = "" then hop else before ++ "." ++ hop) := by
        rcases start with starts | ⟨rfl, named, plain, head⟩
        · rw [if_neg starts.ne_empty]
          exact starts.dotted hop
        · obtain rfl : hop = first := Option.some.inj head
          rw [if_pos rfl]
          exact startsAt_self named plain
      simp only [walk]
      generalize (if before = "" then hop else before ++ "." ++ hop) = path at starts ⊢
      refine (yields_hopNode served (fun join schema => fresh path hop join schema starts) current).bind ?_
      intro n node
      have others := ih n.schema (.inl starts)
      split
      · cases applied : t.apply n with
        | error e =>
            have refused : Yields inv kind (throw e : Resolving (StateM σ) PUnit) fun _ => True :=
              yields_throw
            exact refused.bind fun _ _ => others
        | ok n' =>
            have replaced : Yields inv kind (modify (RelationNode.update hop fun _ => n') :
                Resolving (StateM σ) PUnit) fun _ => True := by
              intro nodes w kinds h
              refine ⟨?_, h, fun _ _ => trivial⟩
              intro k member
              rcases mem_update member with rfl | member
              · exact ended n k node applied
              · exact kinds k member
            exact replaced.bind fun _ _ => others
      · exact others

/-! ### Paths of a request -/

section Requests

variable {params : List (String × String)} {l : QueryLimits}

/-- A walk along a path of the request adds nodes that start at a hop of the request. -/
theorem yields_walkAsked {t : Terminal} {path first : String} (asked : path ∈ Selection.paths params)
    (starts : StartsAt first path) {hops : List String} (head : hops.head? = some first)
    (s : Schema) :
    Yields inv (Asked good (Selection.hops params)) (r.walk t s "" hops) fun _ => True := by
  refine yields_walk served ?_ ?_ s (.inr ⟨rfl, starts.1, ?_, head⟩)
  · rintro n n' ⟨fine, there⟩ applied
    obtain ⟨columns, condition, rfl⟩ := Terminal.apply_eq applied
    exact ⟨fine, there⟩
  · intro path hop join schema begins fine
    exact ⟨fine, first, Selection.startsAt_mem_hops asked starts, begins⟩
  · exact Text.mem_splitOn (List.mem_of_head? starts.2)

theorem yields_resolveField {path : String} (asked : path ∈ Selection.paths params) (s : Schema) :
    Yields inv (Asked good (Selection.hops params)) (r.resolveField s path) fun _ => True := by
  refine (yields_splitTerminal path).bind ?_
  rintro ⟨hops, terminal⟩ ⟨first, head, starts⟩
  exact yields_walkAsked served asked starts head s

theorem yields_resolveRelation {path : String} (asked : path ∈ Selection.paths params) (s : Schema) :
    Yields inv (Asked good (Selection.hops params)) (r.resolveRelation s path) fun _ => True := by
  simp only [resolveRelation]
  split
  · have refused : Yields inv (Asked good (Selection.hops params))
        (throw (.validation s!"Invalid relation {path}") : Resolving (StateM σ) PUnit) fun _ => False :=
      yields_throw
    exact refused.bind fun _ impossible => impossible.elim
  · next named =>
    obtain ⟨first, rest, split⟩ := List.exists_cons_of_ne_nil (Text.splitOn_ne_nil '.' path)
    have filled : first ≠ "" := by
      rintro rfl
      exact named (List.any_eq_true.2 ⟨"", by rw [split]; exact List.mem_cons_self, by simp⟩)
    have head : (Text.splitOn '.' path).head? = some first := by
      rw [split]
      rfl
    exact yields_walkAsked served asked ⟨filled, head⟩ head s

/-- A parameter of the request adds nodes that start at a hop of the request. -/
theorem yields_readParam {p : String × String} (member : p ∈ params) (s : Schema) (d : QueryDraft) :
    Yields inv (Asked good (Selection.hops params)) (r.readParam l s d p) fun _ => True := by
  obtain ⟨name, value⟩ := p
  have still {α : Type} (x : Outcome α) : Yields inv (Asked good (Selection.hops params))
      (liftExcept x : Resolving (StateM σ) α) fun _ => True := yields_liftExcept fun _ _ => trivial
  simp only [readParam]
  split
  · -- fields
    have deep : Yields inv (Asked good (Selection.hops params))
        (liftExcept (s.validateFields (splitList value)) :
          Resolving (StateM σ) (List String × List String))
        fun found => ∀ field ∈ found.2, field ∈ Selection.paths params := by
      refine yields_liftExcept ?_
      rintro ⟨plain, deep⟩ valid field inside
      obtain ⟨token, dotted⟩ := (Schema.mem_validateFields valid).2 field inside
      have asked : field ∈ Selection.tokens "fields" params :=
        Selection.mem_tokens.2 ⟨value, member, token⟩
      exact List.mem_append_left _ (List.mem_filter.2 ⟨asked, List.contains_iff_mem.2 dotted⟩)
    refine deep.bind fun found asked => ?_
    refine (Yields.forM fun field inside => yields_resolveField served (asked field inside) s).bind ?_
    intro _ _
    split
    · exact yields_pure trivial
    · exact yields_pure trivial
  · -- relations
    refine (Yields.forM fun path inside => yields_resolveRelation served ?_ s).bind ?_
    · exact List.mem_append_right _ (Selection.mem_tokens.2 ⟨value, member, inside⟩)
    · exact fun _ _ => yields_pure trivial
  -- the other parameters ask for no tables
  · exact (still _).bind fun _ _ => yields_pure trivial
  · exact (still _).bind fun _ _ => yields_pure trivial
  · exact (still _).bind fun _ _ => yields_pure trivial
  · refine (still _).bind fun _ _ => ?_
    exact (still _).bind fun _ _ => yields_pure trivial
  · exact yields_pure trivial

/-- A condition projects no columns, so its nodes may start anywhere. -/
theorem yields_validateWhere (hops : List String) (s : Schema) (c : WhereCondition) :
    Yields inv (fun n => good n.schema ∧ n.Rooted hops) (r.validateWhere s c) fun _ => True := by
  rw [validateWhere]
  split
  · refine (yields_splitTerminal c.column).bind ?_
    rintro ⟨tables, terminal⟩ ⟨first, head, starts⟩
    have plain : '.' ∉ first.toList := Text.mem_splitOn (List.mem_of_head? starts.2)
    refine (yields_walk served ?_ ?_ s (.inr ⟨rfl, starts.1, plain, head⟩)).bind ?_
    · rintro n n' ⟨fine, rooted⟩ applied
      obtain ⟨value, -, rfl⟩ := Outcome.map_eq_ok.1 applied
      exact ⟨fine, rooted⟩
    · intro path hop join schema _ fine
      exact ⟨fine, fun projected => absurd rfl projected⟩
    · intro _ _
      exact yields_get.bind fun _ _ => yields_pure trivial
  · exact yields_liftExcept fun _ _ => trivial

/-- **The nodes of an accepted request have schemas that were served, and columns of them are projected
only along the paths of the request.** -/
theorem yields_parseQuery (l : QueryLimits) (s : Schema) (params : List (String × String)) :
    Action.Yields inv (r.parseQuery l s params) fun q =>
      ∀ n ∈ q.relations, good n.schema ∧ n.Rooted (Selection.hops params) := by
  intro w h
  have reading : Yields inv (Asked good (Selection.hops params))
      (params.foldlM (r.readParam l s) (QueryDraft.start l)) fun _ => True :=
    Yields.foldlM (fun p member d => yields_readParam served member s d) _
  have checking (d : QueryDraft) : Yields inv
      (fun n => good n.schema ∧ n.Rooted (Selection.hops params)) (r.checkDraft s d)
      fun q => ∀ n ∈ q.relations, good n.schema ∧ n.Rooted (Selection.hops params) := by
    refine (Yields.mapM fun c _ => yields_validateWhere served _ s c).bind ?_
    intro conditions _
    exact yields_get.bind fun nodes kinds => yields_pure kinds
  obtain ⟨kinds, kept, -⟩ := reading [] w (by simp) h
  rw [runFrom_parseQuery, readQuery, Resolving.runFrom_bind]
  generalize Resolving.runFrom (params.foldlM (r.readParam l s) (QueryDraft.start l)) [] w = first
    at kinds kept ⊢
  obtain ⟨⟨e | d, ns⟩, v⟩ := first
  · exact ⟨kept, by simp⟩
  · -- nodes of the paths are rooted, and conditions come last
    have rooted : ∀ n ∈ ns, good n.schema ∧ n.Rooted (Selection.hops params) :=
      fun n member => ⟨(kinds n member).1, fun _ => (kinds n member).2⟩
    obtain ⟨-, kept, returned⟩ := checking d ns v rooted kept
    exact ⟨kept, returned⟩

end Requests

end Walks

end SchemaRegistry

end DataAccess
