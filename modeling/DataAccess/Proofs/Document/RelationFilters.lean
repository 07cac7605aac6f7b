import DataAccess.Proofs.Engine.InMemory
import DataAccess.Proofs.Query.Compiling
import DataAccess.Proofs.Query.Paths
/-
**Filters on joined collections.**  A condition one hop away is resolved to the node of the hop's
table, under whatever path that table was first reached.  Statements look the node up by its path or by
its table and find it; a filter of documents looks it up by its path alone, so it finds the node only if
the table was first reached directly.

Main definitions:

* `WhereCondition.OneHop` — a condition on a table that is one hop away;
* `DocumentDatasource.filterThrough` — the filter of a condition through a node;
* `DataError.IsUnknownRelation` — the failure of a look-up.

Main results:

* `DocumentDatasource.conditionFilter_oneHop` — what the filter of such a condition comes to;
* `DocumentDatasource.avoids_conditionFilter` — a condition whose hop is the path of a node never fails
  the look-up;
* `SchemaRegistry.parseQuery_filters` — **statements find the node of every condition; filters find it
  exactly if its table was first reached directly**;
* `SchemaRegistry.filter_after_detour` — a company that was first reached along the department is found
  by no filter.
-/

set_option autoImplicit false

namespace DataAccess

open RelationNode

/-- A condition on a field of a table that is one hop away. -/
def WhereCondition.OneHop (c : WhereCondition) (hop field : String) : Prop :=
  c.path? = some (hop, field) ∧ '.' ∉ hop.toList

/-- The failure of a relation that is looked up and not found. -/
def DataError.IsUnknownRelation (e : DataError) : Prop :=
  ∃ path table, e = .unknownRelation path table

theorem NativeError.ofStore_known (e : NativeError) : ¬ e.ofStore.IsUnknownRelation := by
  rintro ⟨path, table, same⟩
  rw [ofStore] at same
  split at same
  · exact absurd same (by simp)
  · split at same
    · exact absurd same (by simp)
    · exact absurd same (by simp [unclassified])

namespace DocumentDatasource

open DataAccess.Action

variable {m : Type → Type} [Monad m]

/-- The filter of a condition through a node: the keys of the documents of its table that satisfy the
condition are those that the field on the other side may hold. -/
def filterThrough (d : DocumentDatasource m) (n : RelationNode) (c : WhereCondition)
    (field : String) : ExceptT DataError m Filter := do
  let type ← liftExcept (n.schema.columnType field)
  let related ← ask (d.store.find n.table (Filter.ofCondition field type c.operator c.value)
    (.only [n.joinFields.2]))
  let keys := related.filterMap fun doc => doc.get? n.joinFields.2
  return .object [(n.joinFields.1, .object [("$in", .array keys)])]

/-- A condition one hop away is looked up by its hop. -/
theorem conditionFilter_oneHop (d : DocumentDatasource m) (s : Schema) (nodes : List RelationNode)
    {c : WhereCondition} {hop field : String} (oneHop : c.OneHop hop field) :
    d.conditionFilter s nodes c = match nodes.find? fun n => n.path = hop with
      | some n => d.filterThrough n c field
      | none => throw (.unknownRelation hop s.table) := by
  obtain ⟨cut, plain⟩ := oneHop
  have single : hop.toList.contains '.' = false := by simpa using plain
  rw [conditionFilter, cut]
  simp only [relatedFilter, single, Bool.false_eq_true, if_false]
  cases nodes.find? fun n => n.path = hop <;> rfl

section Failures

variable {σ : Type} (d : DocumentDatasource (StateM σ))

theorem avoids_ask {α : Type} (operation : ExceptT NativeError (StateM σ) α) :
    Avoids DataError.IsUnknownRelation (ask operation) := by
  intro w e failed
  have classified : (runFrom (ask operation) w).1 =
      (operation.run w).1.mapError NativeError.ofStore := rfl
  rw [classified] at failed
  cases answer : (operation.run w).1 with
  | ok a =>
      rw [answer] at failed
      exact absurd failed (by simp [Except.mapError])
  | error native =>
      rw [answer] at failed
      rw [← Except.error.inj failed]
      exact native.ofStore_known

theorem avoids_columnType (s : Schema) (field : String) :
    Avoids DataError.IsUnknownRelation (liftExcept (s.columnType field) : Action σ ColumnType) := by
  refine avoids_liftExcept ?_
  rintro e failed ⟨path, table, rfl⟩
  rw [Schema.columnType] at failed
  split at failed
  · exact absurd failed (by simp)
  · exact absurd failed (by simp)

theorem avoids_filterThrough (n : RelationNode) (c : WhereCondition) (field : String) :
    Avoids DataError.IsUnknownRelation (d.filterThrough n c field) := by
  refine (avoids_columnType n.schema field).bind ?_
  intro type
  refine (avoids_ask _).bind ?_
  intro related
  exact avoids_pure _

/-- A condition whose hop is the path of a node never fails the look-up, and neither does any other
condition that is not one hop away. -/
theorem avoids_conditionFilter (s : Schema) {nodes : List RelationNode} {c : WhereCondition}
    (reached : ∀ hop field, c.OneHop hop field → hop ∈ nodes.map RelationNode.path) :
    Avoids DataError.IsUnknownRelation (d.conditionFilter s nodes c) := by
  cases cut : c.path? with
  | none =>
      rw [conditionFilter, cut]
      refine (avoids_columnType s c.column).bind ?_
      intro type
      exact avoids_pure _
  | some pieces =>
      obtain ⟨path, field⟩ := pieces
      by_cases plain : '.' ∈ path.toList
      · have several : path.toList.contains '.' = true := by simpa using plain
        have refused : d.conditionFilter s nodes c =
            throw (.validation (s!"Filtering on {c.column} spans more than one relation, " ++
              "which document backends do not support")) := by
          rw [conditionFilter, cut]
          simp only [relatedFilter, several, if_true]
          rfl
        rw [refused]
        refine avoids_throw ?_
        rintro ⟨hop, table, same⟩
        exact absurd same (by simp)
      · have there := reached path field ⟨cut, plain⟩
        rw [d.conditionFilter_oneHop s nodes ⟨cut, plain⟩]
        cases found : nodes.find? fun n => n.path = path with
        | none => exact absurd there (find?_eq_none_iff.1 found)
        | some k => exact d.avoids_filterThrough k c field

/-- Nor do several such conditions. -/
theorem avoids_compileFilter (s : Schema) {nodes : List RelationNode} {cs : List WhereCondition}
    (reached : ∀ c ∈ cs, ∀ hop field, c.OneHop hop field → hop ∈ nodes.map RelationNode.path) :
    Avoids DataError.IsUnknownRelation (d.compileFilter s cs nodes) := by
  refine (Avoids.mapM fun c member => d.avoids_conditionFilter s (reached c member)).bind ?_
  intro filters
  exact avoids_pure _

end Failures

end DocumentDatasource

/-! ### The conditions of a request -/

namespace SchemaRegistry

open DataAccess.Action DocumentDatasource

variable {σ τ : Type} {r : SchemaRegistry (StateM σ)} {l : QueryLimits} {s : Schema}

/-- **Statements find the node of every condition one hop away, the only one of its table; filters find
it exactly if its table was first reached directly.**  So filters never fail the look-up if that holds of
all conditions, and are not compiled otherwise. -/
theorem parseQuery_filters {params : List (String × String)} {q : Query} {v v' : σ}
    (accepted : Returns (r.parseQuery l s params) v q v') (d : DocumentDatasource (StateM τ)) :
    (∀ c ∈ q.conditions, ∀ hop field, c.OneHop hop field → ∃ n, Addresses q.relations hop n ∧
      n.table = hop ∧ Statement.address s q.relations c = .ok (n.table, field, n.schema) ∧
        d.conditionFilter s q.relations c = if n.path = hop then d.filterThrough n c field
          else throw (.unknownRelation hop s.table)) ∧
    ((∀ c ∈ q.conditions, ∀ hop field, c.OneHop hop field → hop ∈ q.relations.map path) →
      ∀ w e, (runFrom (d.compileFilter s q.conditions q.relations) w).1 = .error e →
        ¬ e.IsUnknownRelation) ∧
    ∀ c ∈ q.conditions, ∀ hop field, c.OneHop hop field → hop ∉ q.relations.map path →
      ∀ w filter, (runFrom (d.compileFilter s q.conditions q.relations) w).1 ≠ .ok filter := by
  have checked := checked_parseQuery accepted
  have found : ∀ c ∈ q.conditions, ∀ hop field, c.OneHop hop field → ∃ n,
      Addresses q.relations hop n ∧ n.table = hop ∧
        Statement.address s q.relations c = .ok (n.table, field, n.schema) ∧
        d.conditionFilter s q.relations c = if n.path = hop then d.filterThrough n c field
          else throw (.unknownRelation hop s.table) := by
    intro c member hop field oneHop
    have joins := checked.conditions c member
    rw [WhereCondition.Checked, oneHop.1] at joins
    obtain ⟨k, hk, table_eq, -⟩ := joins
    have joined : lastHop hop ∈ q.relations.map table := by
      rw [← table_eq]
      exact List.mem_map_of_mem hk
    obtain ⟨n, addresses⟩ := checked.relations.addresses joined
    have last : lastHop hop = hop := lastHop_eq (by rw [Text.splitOn_of_not_mem oneHop.2]; rfl)
    refine ⟨n, addresses, addresses.table_eq.trans last, ?_, ?_⟩
    · simp only [Statement.address, oneHop.1, addresses.found]
    · rw [d.conditionFilter_oneHop s q.relations oneHop, checked.relations.find?_path addresses]
      by_cases direct : n.path = hop
      · rw [if_pos direct, if_pos direct]
      · rw [if_neg direct, if_neg direct]
  refine ⟨found, fun reached => d.avoids_compileFilter s reached, ?_⟩
  intro c member hop field oneHop absent w filter compiled
  obtain ⟨n, addresses, -, -, refused⟩ := found c member hop field oneHop
  have detour : n.path ≠ hop := by
    rintro rfl
    exact absent (List.mem_map_of_mem addresses.member)
  have run : Returns (d.compileFilter s q.conditions q.relations) w filter
      (runFrom (d.compileFilter s q.conditions q.relations) w).2 := by
    rw [Returns, ← compiled]
  obtain ⟨filters, u, each, -⟩ := returns_bind.1 run
  obtain ⟨u, f, u', here⟩ := each.of_mem_mapM member
  rw [refused, if_neg detour, Returns, runFrom_throw] at here
  exact absurd (Prod.mk.inj here).1 (by simp)

/-! ### People and their companies -/

/-- A request for people, with the limits of a configuration of defaults. -/
def askStaff (params : List (String × String)) : Action Unit Query :=
  firms.parseQuery (Config.ofBackend .mongodb).limits staff params

/-- The people of a company are found through its node, if the company is reached directly. -/
theorem filter_of_company : ∃ q v c n,
    Returns (askStaff [("fields", "department.name"), ("company.name", "Acme")]) () q v ∧
      (q.conditions = [c] ∧ find q.relations "company" = some n) ∧
      Setting.tally.documents.conditionFilter staff q.relations c =
        Setting.tally.documents.filterThrough n c "name" ∧
      ∀ w e, (runFrom (Setting.tally.documents.compileFilter staff q.conditions q.relations) w).1 =
        .error e → ¬ e.IsUnknownRelation := by
  have read : ((askStaff [("fields", "department.name"),
      ("company.name", "Acme")]).runFrom ()).1.toOption.any (fun q =>
        q.conditions.map WhereCondition.path? = [some ("company", "name")] ∧
          q.relations.map path = ["department", "company"]) = true := by
    decide +kernel
  obtain ⟨q, v, accepted, shape⟩ := exists_returns read
  obtain ⟨conditions, paths⟩ := of_decide_eq_true shape
  obtain ⟨c, single, cut⟩ := List.map_eq_singleton_iff.1 conditions
  have oneHop : c.OneHop "company" "name" := ⟨cut, by decide⟩
  have reached : "company" ∈ q.relations.map path := by simp [paths]
  obtain ⟨each, known, -⟩ := parseQuery_filters accepted Setting.tally.documents
  obtain ⟨n, addresses, -, -, filter⟩ := each c (by simp [single]) "company" "name" oneHop
  -- the node with that path is the one that the condition addresses
  obtain ⟨k, there, direct⟩ := List.mem_map.1 reached
  rw [← direct] at addresses
  obtain rfl := addresses.eq_of_path (checked_parseQuery accepted).relations there
  rw [if_pos direct] at filter
  rw [direct] at addresses
  refine ⟨q, v, c, k, accepted, ⟨single, addresses.found⟩, filter, known ?_⟩
  intro c' member hop field oneHop'
  rw [single, List.mem_singleton] at member
  rw [member, WhereCondition.OneHop, cut] at oneHop'
  obtain ⟨rfl, -⟩ := Prod.mk.inj (Option.some.inj oneHop'.1)
  exact reached

/-- If the company was reached along the department before, statements find its node and filters do
not. -/
theorem filter_after_detour : ∃ q v c n,
    Returns (askStaff [("fields", "department.company.name"), ("company.name", "Acme")]) () q v ∧
      (q.conditions = [c] ∧ c.OneHop "company" "name" ∧ find q.relations "company" = some n) ∧
      ∀ w, runFrom (Setting.tally.documents.compileFilter staff q.conditions q.relations) w =
        (.error (.unknownRelation "company" "users"), w) := by
  have read : ((askStaff [("fields", "department.company.name"),
      ("company.name", "Acme")]).runFrom ()).1.toOption.any (fun q =>
        q.conditions.map WhereCondition.path? = [some ("company", "name")] ∧
          (find q.relations "company").isSome = true ∧
          (q.relations.find? fun n => n.path = "company").isNone = true) = true := by
    decide +kernel
  obtain ⟨q, v, accepted, shape⟩ := exists_returns read
  obtain ⟨conditions, found, absent⟩ := of_decide_eq_true shape
  obtain ⟨c, single, cut⟩ := List.map_eq_singleton_iff.1 conditions
  obtain ⟨n, found⟩ := Option.isSome_iff_exists.1 found
  have oneHop : c.OneHop "company" "name" := ⟨cut, by decide⟩
  refine ⟨q, v, c, n, accepted, ⟨single, oneHop, found⟩, ?_⟩
  intro w
  have refused : Setting.tally.documents.conditionFilter staff q.relations c =
      throw (.unknownRelation "company" "users") := by
    rw [conditionFilter_oneHop _ staff q.relations oneHop, Option.isNone_iff_eq_none.1 absent]
    rfl
  rw [compileFilter, single, List.mapM_cons, refused]
  rfl

end SchemaRegistry

end DataAccess
